import Sigil.Proofs.PrintedReading
import Sigil.Proofs.RenderedExpansion

/-!
# Rendered texts read back

Rendering drops parentheses, so an expression is not read back from its rendering; its leaves are.
`Registry.readAll_rendered`: where none of its names is bound and all of them can be read back from
a document, an expression renders, and all that is read from its rendering are its atoms and
strings, in order.

1. Where no name is bound, rendering writes the leaves, with a space before each element of a list
   but its first (`renderWith_of_unbound`).
2. What is read to the end of an input is found expression by expression (`ReadsAll.cons`), and a
   space in front does not matter (`ReadsAll.space`).
3. Behind the leaves of an expression the text goes on with a space or ends, so no leaf runs into
   what follows (`delimited_flattenedRest`).
-/

namespace Sigil

/-! ## Leaves -/

namespace Expr

mutual

/-- The atoms and strings of an expression, from left to right. -/
def leaves : Expr → List Expr
  | .atom name => [.atom name]
  | .str text => [.str text]
  | .list es => leavesOfItems es

/-- The atoms and strings of the items of a list. -/
def leavesOfItems : List Expr → List Expr
  | [] => []
  | e :: es => e.leaves ++ leavesOfItems es

end

mutual

/-- The text of an expression without its parentheses. -/
def flattened : Expr → String
  | .atom name => name
  | .str text => Text.Quoted.literal text
  | .list [] => ""
  | .list (e :: es) => e.flattened ++ flattenedRest es

/-- The items of a list behind its first one, a space before each. -/
def flattenedRest : List Expr → String
  | [] => ""
  | e :: es => " " ++ e.flattened ++ flattenedRest es

end

end Expr

/-! ## Rendering without bindings -/

/-- The registry binds none of the names in the expression, neither to a replacement nor to a
macro. -/
def Registry.Unbound (r : Registry) (e : Expr) : Prop :=
  e.Only fun name => r.symbols.get? name = none ∧ r.macros.get? name = none

theorem Registry.Unbound.called? {r : Registry} {e : Expr} {es : List Expr}
    (h : r.Unbound (.list (e :: es))) : r.called? (.list (e :: es)) = none := by
  cases e with
  | atom head => exact (Expr.only_atom.1 (Expr.only_list_cons.1 h).1).2
  | str text => rfl
  | list items => rfl

namespace Rendering

theorem write_empty : write "" = pure () := by
  funext out
  show (Except.ok (), out ++ "") = (Except.ok (), out)
  rw [String.append_empty]

theorem write_bind_write (a b : String) : (do write a; write b) = write (a ++ b) := by
  funext out
  show (Except.ok (), out ++ a ++ b) = (Except.ok (), out ++ (a ++ b))
  rw [String.append_assoc]

section

variable {r : Registry} {s : Settings} {again : Expr → Rendering Unit}

mutual

/-- **Rendering.**  Where no name is bound, the leaves are written. -/
theorem renderWith_of_unbound : (e : Expr) → r.Unbound e →
    renderWith r s again e = write e.flattened
  | .atom name, h => by
    rw [renderWith_atom, (Expr.only_atom.1 h).1]
    rfl
  | .str text, _ => rfl
  | .list [], _ => write_empty.symm
  | .list (e :: es), h => by
    obtain ⟨he, hes⟩ := Expr.only_list_cons.1 h
    rw [renderWith_rebuild s h.called?, renderWith_of_unbound e he, renderRest_of_unbound es hes,
      write_bind_write]
    rfl

theorem renderRest_of_unbound : (es : List Expr) → r.Unbound (.list es) →
    renderRest r s again es = write (Expr.flattenedRest es)
  | [], _ => write_empty.symm
  | e :: es, h => by
    obtain ⟨he, hes⟩ := Expr.only_list_cons.1 h
    rw [renderRest_cons, renderWith_of_unbound e he, renderRest_of_unbound es hes,
      write_bind_write, write_bind_write, ← String.append_assoc]
    rfl

end

end

end Rendering

theorem Registry.render_of_unbound {r : Registry} {e : Expr} (s : Settings) (h : r.Unbound e) :
    r.render s e = .ok e.flattened := by
  rw [render_eq_ok_iff, Rendering.renderWith_of_unbound e h]
  show (Except.ok (), "" ++ e.flattened) = (Except.ok (), e.flattened)
  rw [String.empty_append]

/-! ## Reading to the end -/

namespace Datum

open Text (Casing)

variable {casing : Casing}

/-- The expressions in the text `r` are `es`: they are read from any input in front of it, up to
blanks and comments. -/
def ReadsAll (casing : Casing) (r : List Char) (es : List Expr) : Prop :=
  ∀ i : Input, i.Legible → Plain.skip i.remaining = Plain.skip r → (readAll casing i).1 = .ok es

theorem ReadsAll.nil (casing : Casing) : ReadsAll casing [] [] :=
  fun _ hi hr => readAll_of_end hi hr

theorem ReadsAll.space {r : List Char} {es : List Expr} (h : ReadsAll casing r es) :
    ReadsAll casing (' ' :: r) es := fun i hi hr => h i hi hr

/-- One expression and those behind it. -/
theorem ReadsAll.cons {r t : List Char} {e : Expr} {es : List Expr}
    (he : Plain.read casing r = .ok (e, t)) (hes : ReadsAll casing t es) :
    ReadsAll casing r (e :: es) := by
  intro i hi hr
  have hread : Plain.read casing i.remaining = .ok (e, t) := by
    rw [Plain.read, hr, ← Plain.read]
    exact he
  obtain ⟨k, hlk, hrk, hk⟩ := exists_readAll hi hread
  rw [hk, hes k hlk (by rw [hrk])]
  rfl

/-! ## Leaves in a text -/

theorem delimited_flattenedRest (es : List Expr) {r : List Char} (hr : Delimited r) :
    Delimited ((Expr.flattenedRest es).toList ++ r) := by
  cases es with
  | nil => exact hr
  | cons e es =>
    simp only [Expr.flattenedRest, String.toList_append, List.append_assoc]
    exact delimited_cons _ (by decide)

/-- A printed atom or string is read, and then what follows. -/
theorem readsAll_printed {e : Expr} {r : List Char} {es : List Expr} (h : e.Only Expr.DocumentName)
    (hr : Delimited r) (hes : ReadsAll .keep r es) :
    ReadsAll .keep (e.printed.toList ++ r) (e :: es) :=
  .cons (read_printed h (fun _ _ => rfl) fun _ => hr) hes

mutual

/-- **Reading.**  Where the text that follows does not run on the last leaf, the leaves of an
expression are read and then what follows. -/
theorem readsAll_flattened : (e : Expr) → {r : List Char} → {es : List Expr} →
    e.Only Expr.DocumentName → Delimited r → ReadsAll .keep r es →
    ReadsAll .keep (e.flattened.toList ++ r) (e.leaves ++ es)
  | .atom name, _, _, h, hr, hes => by
    have hread := readsAll_printed h hr hes
    rwa [Expr.printed] at hread
  | .str text, _, _, h, hr, hes => by
    have hread := readsAll_printed h hr hes
    rwa [Expr.printed] at hread
  | .list [], _, _, _, _, hes => hes
  | .list (x :: xs), r, es, h, hr, hes => by
    obtain ⟨hx, hxs⟩ := Expr.only_list_cons.1 h
    have hrest := readsAll_flattenedRest xs hxs hr hes
    have hall := readsAll_flattened x hx (delimited_flattenedRest xs hr) hrest
    rw [Expr.flattened, Expr.leaves, Expr.leavesOfItems, String.toList_append, List.append_assoc,
      List.append_assoc]
    exact hall

theorem readsAll_flattenedRest : (xs : List Expr) → {r : List Char} → {es : List Expr} →
    (Expr.list xs).Only Expr.DocumentName → Delimited r → ReadsAll .keep r es →
    ReadsAll .keep ((Expr.flattenedRest xs).toList ++ r) (Expr.leavesOfItems xs ++ es)
  | [], _, _, _, _, hes => hes
  | x :: xs, r, es, h, hr, hes => by
    obtain ⟨hx, hxs⟩ := Expr.only_list_cons.1 h
    have hrest := readsAll_flattenedRest xs hxs hr hes
    have hall := readsAll_flattened x hx (delimited_flattenedRest xs hr) hrest
    rw [Expr.flattenedRest, Expr.leavesOfItems, String.toList_append, String.toList_append,
      List.append_assoc, List.append_assoc, List.append_assoc]
    exact hall.space

end

end Datum

namespace Registry

/-- **Rendered texts** read back as the leaves.  If the names in an expression can be read back from
a document and none of them is bound, the expression renders under any settings, and the expressions
in its rendering, read with their case kept, are its atoms and strings from left to right. -/
theorem readAll_rendered (r : Registry) (s : Settings) (name : String) (e : Expr)
    (he : e.Only Expr.DocumentName) (hr : r.Unbound e) :
    ∃ text, r.render s e = .ok text ∧
      (Datum.readAll .keep (.ofText name text)).1 = .ok e.leaves := by
  have hdelimited : Datum.Delimited [] := nofun
  have hall := Datum.readsAll_flattened e he hdelimited (Datum.ReadsAll.nil .keep)
  rw [List.append_nil, List.append_nil] at hall
  refine ⟨e.flattened, render_of_unbound s hr, ?_⟩
  exact hall (.ofText name e.flattened) (Input.legible_ofText name e.flattened)
    (by rw [Input.remaining_ofText])

/-- Empty lists at both ends and inside, and a string of marks over two lines, where a macro has
another name. -/
theorem readAll_rendered_nested :
    let t : Template := ⟨"twice", { required := ["x"] }, .list [.atom "x", .atom "x"]⟩
    let r := empty.defineMacro "twice" (.ofTemplate t)
    let e : Expr := .list [.list [], .list [.atom "Été", .list [.list []], .str "\n\"(;"],
      .list [.list [.atom "x"], .atom "..."], .list []]
    (e.Only Expr.DocumentName ∧ r.Unbound e) ∧
    r.render {} e = .ok " Été  \"\n\\\"(;\" x ... " ∧
    (Datum.readAll .keep (.ofText "rendered" " Été  \"\n\\\"(;\" x ... ")).1 =
      .ok [.atom "Été", .str "\n\"(;", .atom "x", .atom "..."] := by
  intro t r e
  have he : e.Only Expr.DocumentName := by decide
  have hr : r.Unbound e := by
    have hnames : e.names = ["Été", "x", "..."] := by decide +kernel
    intro name hname
    rw [hnames] at hname
    simp only [List.mem_cons, List.not_mem_nil, or_false] at hname
    rcases hname with rfl | rfl | rfl <;> exact ⟨rfl, rfl⟩
  obtain ⟨text, htext, hread⟩ := readAll_rendered r {} "rendered" e he hr
  have hrender : r.render {} e = .ok " Été  \"\n\\\"(;\" x ... " := by decide +kernel
  obtain rfl := Except.ok.inj (htext.symm.trans hrender)
  exact ⟨⟨he, hr⟩, hrender, hread⟩

end Registry

end Sigil
