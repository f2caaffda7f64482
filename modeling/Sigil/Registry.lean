import Sigil.Table
import Sigil.Template

/-!
# The registry of macros

Two tables: macros that replace calls, by the name at the head of the call, and expressions that
replace single atoms.  Installing a macro always overwrites.  Every installation has a stamp of its
own, so that two registries can be told apart even if macros of the same text were installed in
them; an installation that is shadowed and comes back keeps its stamp.

`Registry.withMacros` and `Registry.withSymbols` bind names while a body runs and restore what they
shadowed, however the body ends: its outcome is an ordinary value here.
-/

namespace Sigil

/-- A replacement of calls: expanded arguments in, a new expression out. -/
structure Macro where
  transform : List Expr → Except Failure Expr
  /-- The template that the macro was made from. -/
  template : Option Template := none
  /-- Which installation this is. -/
  stamp : Nat := 0

/-- The macro that instantiates a template. -/
def Macro.ofTemplate (t : Template) : Macro := { transform := t.instantiate, template := some t }

/-- The macros of a run. -/
structure Registry where
  macros : Table Macro
  symbols : Table Expr
  /-- The number of installations so far. -/
  installed : Nat

namespace Registry

/-- The registry without macros. -/
def empty : Registry := ⟨.empty, .empty, 0⟩

instance : Inhabited Registry := ⟨empty⟩

/-- A registry without macros. -/
def isEmpty (r : Registry) : Bool := r.macros.isEmpty && r.symbols.isEmpty

/-- Installs a macro under a name. -/
def defineMacro (r : Registry) (name : String) (m : Macro) : Registry :=
  { r with
    macros := r.macros.insert name { m with stamp := r.installed }
    installed := r.installed + 1 }

/-- Binds an atom to its replacement. -/
def defineSymbol (r : Registry) (name : String) (e : Expr) : Registry :=
  { r with symbols := r.symbols.insert name e }

/-- The registry without a macro of the given name. -/
def eraseMacro (r : Registry) (name : String) : Registry :=
  { r with macros := r.macros.erase name }

/-- The registry without a replacement of the given atom. -/
def eraseSymbol (r : Registry) (name : String) : Registry :=
  { r with symbols := r.symbols.erase name }

/-- The same installations under the same names, and the same replacements. -/
def same (r s : Registry) : Bool :=
  r.macros.entries.map (fun (name, m) => (name, m.stamp))
      == s.macros.entries.map (fun (name, m) => (name, m.stamp))
    && r.symbols.entries == s.symbols.entries

/-! ## Scoped bindings -/

/-- Stamps for macros that are installed in turn. -/
def stamped (r : Registry) : List (String × Macro) → List (String × Macro)
  | [] => []
  | (name, m) :: rest =>
    (name, { m with stamp := r.installed })
      :: stamped { r with installed := r.installed + 1 } rest

/-- Runs `body` with macros bound, then restores what they shadowed. -/
def withMacros {β : Type} (r : Registry) (bindings : List (String × Macro))
    (body : Registry → β × Registry) : β × Registry :=
  let (saved, macros) := r.macros.shadow (r.stamped bindings)
  let (b, r') := body { r with macros, installed := r.installed + bindings.length }
  (b, { r' with macros := r'.macros.unshadow saved })

/-- Runs `body` with atoms bound to replacements, then restores what they shadowed. -/
def withSymbols {β : Type} (r : Registry) (bindings : List (String × Expr))
    (body : Registry → β × Registry) : β × Registry :=
  let (saved, symbols) := r.symbols.shadow bindings
  let (b, r') := body { r with symbols }
  (b, { r' with symbols := r'.symbols.unshadow saved })

end Registry

end Sigil
