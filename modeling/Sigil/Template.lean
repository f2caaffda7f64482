import Sigil.Failure

/-!
# Templates

A macro given by example: parameters and a body into which arguments are substituted.  A rest
parameter takes the arguments behind the required ones.  As an element of a list it is spliced in;
elsewhere it stands for the list of its arguments.  Inside `(quote …)` nothing is substituted, and
arguments are not substituted into again.
-/

namespace Sigil

/-- The parameters of a template. -/
structure Params where
  required : List String := []
  rest : Option String := none
deriving DecidableEq, Repr

/-- The number of arguments that parameters take. -/
def Params.arity (p : Params) : Arity :=
  match p.rest with
  | some _ => .atLeast p.required.length
  | none => .exactly p.required.length

/-- A named body with parameters. -/
structure Template where
  name : String
  params : Params
  body : Expr
deriving DecidableEq, Repr

/-- What a parameter stands for. -/
inductive Argument where
  | one (e : Expr)
  | many (es : List Expr)

namespace Template

/-! ## Parameters -/

/-- The name behind three dots, if `name` starts with them. -/
def undotted? (name : String) : Option String :=
  match name.toList with
  | '.' :: '.' :: '.' :: rest => some (String.ofList rest)
  | _ => none

/-- `name` behind three dots. -/
def dotted (name : String) : String := "..." ++ name

/-- The argument of the parameter `name`.  The rest parameter comes before the required ones, and
of several required ones with that name the last counts. -/
def bound? (params : Params) (args : List Expr) (name : String) : Option Argument :=
  if params.rest = some name then some (.many (args.drop params.required.length))
  else ((params.required.zip args).reverse.lookup name).map .one

/-- The argument that an atom of the body stands for: that of the parameter of its name, or of the
parameter behind its dots. -/
def argument? (params : Params) (args : List Expr) (name : String) : Option Argument :=
  (bound? params args name).or ((undotted? name).bind (bound? params args))

/-! ## Substitution -/

mutual

/-- The body with arguments in place of parameters. -/
def substitute (lookup : String → Option Argument) : Expr → Expr
  | .atom name =>
    match lookup name with
    | some (.one e) => e
    | some (.many es) => .list es
    | none => .atom name
  | .str text => .str text
  | .list items =>
    if items.head? = some (.atom "quote") then .list items
    else .list (substituteItems lookup items)

/-- The elements of a list with arguments in place of parameters, a rest parameter spliced in. -/
def substituteItems (lookup : String → Option Argument) : List Expr → List Expr
  | [] => []
  | e :: es =>
    match e.name?.bind lookup with
    | some (.many args) => args ++ substituteItems lookup es
    | _ => substitute lookup e :: substituteItems lookup es

end

/-- The body of a template for the given arguments. -/
def instantiate (t : Template) (args : List Expr) : Except Failure Expr :=
  if t.params.arity.admits args.length then
    .ok (substitute (argument? t.params args) t.body)
  else
    .error (.plain (.wrongArity t.name t.params.arity args.length))

/-! ## Printed form -/

/-- The parameters as they are written behind the name of a template. -/
def printedParams (p : Params) : String :=
  String.join (p.required.map (" " ++ ·))
    ++ (match p.rest with
        | some rest => " " ++ dotted rest
        | none => "")

/-- Signature and body, as they are written in a definition. -/
def printed (t : Template) : String :=
  "(" ++ t.name ++ printedParams t.params ++ ") " ++ t.body.printed

instance : ToString Template := ⟨printed⟩

end Template

end Sigil
