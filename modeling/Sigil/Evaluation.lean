import Sigil.Expansion

/-!
# Evaluation of definitions

A small evaluator: enough to define macros from inside a document and to build data for rendering.

| form | value |
|------|-------|
| a string, an atom without replacement, `()` | itself |
| an atom with a replacement | the value of that |
| `(quote x)` | `x` |
| `(progn f…)` | the last value, `nil` if there is none |
| `(list f…)` | the list of the values |
| `(define-symbol-macro name x)` | `name`, now replaced by `x` |
| `(define-macro (name p… ...rest) body)` | `name`, now a macro |
| `(symbol-macrolet ((name x)…) f…)` | as `progn`, with the replacements bound |
| `(macrolet ((name (p…) body)…) f…)` | as `progn`, with the macros bound |
| `(macroexpand f)` | the expansion of the value of `f` |
| a call of a macro | the value of its expansion |

The operators of this table come before macros of the same name.  Every form inside a form is one
level deeper, and so is what a macro produces; the depth limit bounds the levels.
-/

namespace Sigil

/-- Evaluation may fail and works on a registry; definitions before a failure stay. -/
abbrev Evaluating := ExceptT Failure (StateM Registry)

/-- What turns an expression into a value. -/
abbrev Host := Expr → Evaluating Expr

namespace Evaluation

/-! ## Operators -/

/-- The operators of the evaluator. -/
inductive Operator where
  | quote
  | progn
  | list
  | defineSymbol
  | defineMacro
  | symbolLet
  | macroLet
  | expand
deriving DecidableEq, Repr

/-- The operator of a given name. -/
def Operator.ofName? : String → Option Operator
  | "quote" => some .quote
  | "progn" => some .progn
  | "list" => some .list
  | "define-symbol-macro" => some .defineSymbol
  | "define-macro" => some .defineMacro
  | "symbol-macrolet" => some .symbolLet
  | "macrolet" => some .macroLet
  | "macroexpand" => some .expand
  | _ => none

/-! ## Parts of forms -/

/-- A fault of the evaluator. -/
def fail {α : Type} (fault : Fault) : Except Failure α := .error (.plain fault)

/-- The name that an operator expects. -/
def name (operator : String) (e : Expr) : Except Failure String :=
  match e with
  | .atom name => .ok name
  | e => fail (.nameExpected operator e)

/-- Parameters from their written form.  `seen` are the names before them. -/
def params (macroName : String) (seen : List String) : List Expr → Except Failure Params
  | [] => .ok {}
  | .atom written :: more =>
    let undotted := Template.undotted? written
    let param := undotted.getD written
    if param.isEmpty then fail (.parameterUnnamed macroName)
    else if param ∈ seen then fail (.parameterRepeated macroName param)
    else
      match undotted with
      | some rest =>
        if more.isEmpty then .ok { rest := some rest }
        else fail (.restNotLast macroName written)
      | none => do
        let later ← params macroName (param :: seen) more
        return { later with required := written :: later.required }
  | e :: _ => fail (.parameterIsNoName macroName e)

/-- The template that a signature and a body define. -/
def template (name : String) (written : List Expr) (body : Expr) : Except Failure Template := do
  let params ← params name [] written
  return { name, params, body }

/-- The name and the template of `(define-macro (name p…) body)`. -/
def definition (operator : String) : List Expr → Except Failure Template
  | [.list (head :: written), body] => do
    let name ← name operator head
    template name written body
  | [signature, _] => fail (.signatureExpected operator signature)
  | args => fail (.argumentCount operator 2 args.length)

/-- The elements of a binding. -/
def bindingItems (operator : String) : Expr → Except Failure (List Expr)
  | .list items => .ok items
  | e => fail (.bindingIsNoList operator e)

/-- A binding `(name x)` of an atom to its replacement. -/
def symbolBinding (operator : String) (binding : Expr) : Except Failure (String × Expr) := do
  match ← bindingItems operator binding with
  | [head, e] => return (← name operator head, e)
  | items => fail (.argumentCount operator 2 items.length)

/-- A binding `(name (p…) body)` of a macro. -/
def macroBinding (operator : String) (binding : Expr) : Except Failure (String × Macro) := do
  match ← bindingItems operator binding with
  | [head, params, body] =>
    let name ← name operator head
    match params with
    | .list written => return (name, .ofTemplate (← template name written body))
    | _ => fail (.parametersAreNoList operator name)
  | items => fail (.argumentCount operator 3 items.length)

/-- The bindings and the body of a form that binds for a while. -/
def bindings (operator : String) : List Expr → Except Failure (List Expr × List Expr)
  | .list bindings :: body => .ok (bindings, body)
  | _ => fail (.bindingsExpected operator)

/-! ## Evaluation -/

/-- Evaluates forms in turn; the last value counts, and `last` if there is none. -/
def evalBody (eval : Expr → Evaluating Expr) (last : Expr) : List Expr → Evaluating Expr
  | [] => pure last
  | form :: forms => do
    let value ← eval form
    evalBody eval value forms

/-- Evaluates forms from left to right. -/
def evalEach (eval : Expr → Evaluating Expr) : List Expr → Evaluating (List Expr)
  | [] => pure []
  | form :: forms => do
    let value ← eval form
    let values ← evalEach eval forms
    pure (value :: values)

/-- A computation that leaves the registry alone. -/
def lift {α : Type} (x : Except Failure α) : Evaluating α := ExceptT.mk (pure x)

/-- The expansion of an expression by the macros of this moment. -/
def expandNow (s : Settings) (e : Expr) : Evaluating Expr := fun r => (r.expand s e, r)

/-- Applies an operator; `eval` evaluates one level deeper. -/
def apply (s : Settings) (eval : Expr → Evaluating Expr) (op : Operator) (name : String)
    (args : List Expr) : Evaluating Expr :=
  match op with
  | .quote =>
    match args with
    | [e] => pure e
    | _ => lift (fail (.argumentCount name 1 args.length))
  | .progn => evalBody eval .nil args
  | .list => do
    let values ← evalEach eval args
    pure (.list values)
  | .defineSymbol =>
    match args with
    | [head, e] => do
      let symbol ← lift (Evaluation.name name head)
      modify (·.defineSymbol symbol e)
      pure (.atom symbol)
    | _ => lift (fail (.argumentCount name 2 args.length))
  | .defineMacro => do
    let template ← lift (definition name args)
    modify (·.defineMacro template.name (.ofTemplate template))
    pure (.atom template.name)
  | .symbolLet => do
    let (written, body) ← lift (bindings name args)
    let bound ← lift (written.mapM (symbolBinding name))
    fun r => r.withSymbols bound (evalBody eval .nil body)
  | .macroLet => do
    let (written, body) ← lift (bindings name args)
    let bound ← lift (written.mapM (macroBinding name))
    fun r => r.withMacros bound (evalBody eval .nil body)
  | .expand =>
    match args with
    | [form] => do
      let value ← eval form
      expandNow s value
    | _ => lift (fail (.argumentCount name 1 args.length))

/-- Evaluates an expression when `n - 1` levels are left below it, and fails for `n = 0`. -/
def evalWithin (s : Settings) : Nat → Expr → Evaluating Expr
  | 0, e => lift (fail (.evaluationTooDeep e s.maxDepth))
  | n + 1, e =>
    match e with
    | .str text => pure (.str text)
    | .atom name => do
      match (← get).symbols.get? name with
      | some e => evalWithin s n e
      | none => pure (.atom name)
    | .list [] => pure (.list [])
    | .list (.atom head :: args) =>
      match Operator.ofName? head with
      | some op => apply s (evalWithin s n) op head args
      | none => do
        match (← get).macros.get? head with
        | none => lift (fail (.unknownOperator head))
        | some _ => do
          let expanded ← expandNow s e
          evalWithin s n expanded
    | .list (head :: _) => lift (fail (.headIsNoAtom e head))

end Evaluation

/-- The evaluator of definitions. -/
def Host.definitions (s : Settings) : Host := Evaluation.evalWithin s (s.maxDepth + 1)

end Sigil
