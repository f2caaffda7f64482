import Sigil.Proofs.OneDatum
import Sigil.Proofs.Reloading
import Sigil.Proofs.Runs

/-!
# Definitions in folded documents

`Handler.definitions_by_fold`: a document that folds its names to small letters can define macros
and replacements, and what it defines is what it writes with all names folded.  A document that
folds them to capitals can not: the name of the operator is folded too, and the names of operators
are compared as they stand, in small letters.

1. No capital form of a character is a small letter of ASCII, and all operators have such letters
   in their names (`ofName?_upperText`).
2. Silent evaluation reads an expression, folds its names and evaluates it (`leaves_evaluated`).
3. In small letters an operator keeps its name (`leaves_operator`), in capitals no form has one
   (`leaves_unknown`).
-/

namespace Sigil

/-! ## Capitals -/

namespace Text

theorem isLower_eq_false_iff {c : Char} : c.isLower = false ↔ c.toNat < 97 ∨ 122 < c.toNat := by
  have hlo : 'a'.val.toNat = 97 := rfl
  have hhi : 'z'.val.toNat = 122 := rfl
  have hlower : c.isLower = (decide ('a'.val ≤ c.val) && decide (c.val ≤ 'z'.val)) := rfl
  rw [hlower, ← Bool.not_eq_true, Bool.and_eq_true, decide_eq_true_eq, decide_eq_true_eq,
    UInt32.le_iff_toNat_le, UInt32.le_iff_toNat_le, hlo, hhi, Char.toNat]
  omega

theorem isLower_ofNat {n : Nat} (h : n < 97 ∨ 122 < n) : (Char.ofNat n).isLower = false := by
  by_cases hn : n.isValidChar
  · have hchar : Char.ofNat n = Char.ofNatAux n hn := dif_pos hn
    rw [hchar]
    exact isLower_eq_false_iff.2 h
  · have hchar : Char.ofNat n = ⟨0, by decide⟩ := dif_neg hn
    rw [hchar]
    decide

theorem isLower_toUpper (c : Char) : c.toUpper.isLower = false := by
  -- the step from small letters down to capitals is added modulo `2 ^ 32`
  have hshift : ('A'.val - 'a'.val).toNat = 2 ^ 32 - 32 := by decide
  have hlo : 'a'.val.toNat = 97 := rfl
  have hhi : 'z'.val.toNat = 122 := rfl
  rw [isLower_eq_false_iff]
  by_cases h : 'a'.val ≤ c.val ∧ c.val ≤ 'z'.val
  · have hupper : c.toUpper.val = c.val + ('A'.val - 'a'.val) := by
      delta Char.toUpper
      rw [dif_pos h]
    rw [UInt32.le_iff_toNat_le, UInt32.le_iff_toNat_le, hlo, hhi] at h
    rw [Char.toNat, hupper, UInt32.toNat_add, hshift]
    omega
  · have hupper : c.toUpper = c := dif_neg h
    rw [UInt32.le_iff_toNat_le, UInt32.le_iff_toNat_le, hlo, hhi] at h
    rw [hupper, Char.toNat]
    omega

/-- The images of a run lie on one side of the small letters. -/
theorem upperRuns_avoid : ∀ r ∈ CaseTable.upperRuns,
    r.last + r.delta < 97 ∨ 122 < r.first + r.delta := by decide +kernel

theorem upperSequences_avoid : ∀ p ∈ CaseTable.upperSequences, ∀ n ∈ p.2, n < 97 ∨ 122 < n := by
  decide +kernel

theorem image_avoids {r : CaseRun} (hr : r ∈ CaseTable.upperRuns) {n : Nat}
    (hn : r.contains n = true) : r.image n < 97 ∨ 122 < r.image n := by
  obtain ⟨⟨hfirst, hlast⟩, -⟩ : (r.first ≤ n ∧ n ≤ r.last) ∧ _ := by
    simpa only [CaseRun.contains, Bool.and_eq_true, decide_eq_true_eq] using hn
  have havoid := upperRuns_avoid r hr
  unfold CaseRun.image
  omega

/-- The capital form of a character has no small letters of ASCII. -/
theorem isLower_of_mem_upperChar {c d : Char} (h : d ∈ upperChar c) : d.isLower = false := by
  unfold upperChar at h
  split at h
  · rw [List.mem_singleton.1 h]
    exact isLower_toUpper c
  · next hc =>
    unfold mapped at h
    split at h
    · next ns hns =>
      obtain ⟨n, hn, rfl⟩ := List.mem_map.1 h
      obtain ⟨before, after, hmem, -⟩ := List.lookup_eq_some_iff.1 hns
      exact isLower_ofNat (upperSequences_avoid (c.toNat, ns) (by simp [hmem]) n hn)
    · split at h
      · next r hr =>
        rw [List.mem_singleton.1 h]
        have hcontains := List.find?_some hr
        exact isLower_ofNat (image_avoids (List.mem_of_find?_eq_some hr) hcontains)
      · rw [List.mem_singleton.1 h]
        exact isLower_eq_false_iff.2 (by omega)

theorem isLower_of_mem_upperText {name : String} {c : Char} (h : c ∈ (upperText name).toList) :
    c.isLower = false := by
  rw [upperText, String.toList_ofList] at h
  obtain ⟨b, -, hc⟩ := List.mem_flatMap.1 h
  exact isLower_of_mem_upperChar hc

end Text

namespace Evaluation

open Text (upperText)

theorem Operator.any_isLower {name : String} {op : Operator} (h : ofName? name = some op) :
    name.toList.any Char.isLower = true := by
  unfold ofName? at h
  split at h
  all_goals first | decide | cases h

/-- No name in capitals is that of an operator. -/
theorem Operator.ofName?_upperText (name : String) : ofName? (upperText name) = none := by
  rw [Option.eq_none_iff_forall_ne_some]
  intro op h
  obtain ⟨c, hc, hlower⟩ := List.any_eq_true.1 (any_isLower h)
  rw [Text.isLower_of_mem_upperText hc] at hlower
  cases hlower

/-- A name that is that of no operator and no macro is reported. -/
theorem definitions_unknown (s : Settings) {head : String} (args : List Expr) {r : Registry}
    (hop : Operator.ofName? head = none) (hfree : r.macros.get? head = none) :
    Host.definitions s (.list (.atom head :: args)) r =
      (.error (.plain (.unknownOperator head)), r) := by
  unfold Host.definitions
  rw [evalWithin_call s s.maxDepth args hop, hfree]
  rfl

end Evaluation

/-! ## Directives -/

namespace Handler

open Text (lowerText upperText)

variable {settings host : Settings} {sigil : String} {s : RunState} {rest : List Char}

/-- Silent evaluation takes what stands in front of `rest`, writes nothing, and has the given
outcome and macros. -/
def Leaves (settings host : Settings) (sigil : String) (s : RunState) (rest : List Char)
    (outcome : Except Failure Unit) (r : Registry) : Prop :=
  ∃ i : Input, i.Legible ∧ i.remaining = rest ∧
    evaluateSilently.directive.run ⟨settings, .definitions host⟩ sigil s =
      (outcome, ⟨i, r, s.sink⟩)

theorem Leaves.unique {x y : Except Failure Unit} {r q : Registry}
    (h : Leaves settings host sigil s rest x r) (h' : Leaves settings host sigil s rest y q) :
    x = y ∧ r = q := by
  obtain ⟨i, -, -, hx⟩ := h
  obtain ⟨j, -, -, hy⟩ := h'
  cases hx.symm.trans hy
  exact ⟨rfl, rfl⟩

/-- **Directives.** Silent evaluation evaluates the expression with its names folded. -/
theorem leaves_evaluated (hs : s.input.Legible) {e : Expr} (hatom : e.name? = none)
    (he : e.Only Expr.DocumentName) (htext : s.input.remaining = e.printed.toList ++ rest)
    {x : Except Failure Expr} {r : Registry}
    (hx : Host.definitions host (e.mapNames settings.fold.apply) s.registry = (x, r)) :
    Leaves settings host sigil s rest (x.map fun _ => ()) r := by
  have hread : Datum.Plain.read (.fold settings.fold) (e.printed.toList ++ rest) =
      .ok (e.mapNames settings.fold.apply, rest) :=
    Datum.plain_read_printed (.fold settings.fold) .nil he (absurd hatom)
  have hagrees := Datum.agrees_read (.fold settings.fold) hs
  rw [htext, hread] at hagrees
  obtain ⟨i, hi, hlegible, hrest⟩ := hagrees.exists_ok
  refine ⟨i, hlegible, hrest, ?_⟩
  have hcased : Datum.read (evaluateSilently.casing settings) s.input =
      (.ok (e.mapNames settings.fold.apply), i) := hi
  rw [directive_apply, hcased]
  simp only [effect, hx]

/-- In small letters an operator keeps its name. -/
theorem leaves_operator (hfold : settings.fold = .lower) (hs : s.input.Legible) {op : String}
    (hop : lowerText op = op) (args : List Expr)
    (hdocument : (Expr.list (.atom op :: args)).Only Expr.DocumentName)
    (htext : s.input.remaining = (Expr.list (.atom op :: args)).printed.toList ++ rest)
    {x : Except Failure Expr} {r : Registry}
    (hx : Host.definitions host (.list (.atom op :: Expr.mapItems lowerText args)) s.registry =
      (x, r)) :
    Leaves settings host sigil s rest (x.map fun _ => ()) r := by
  refine leaves_evaluated hs rfl hdocument htext ?_
  rw [hfold]
  show Host.definitions host (.list (.atom (lowerText op) :: _)) s.registry = _
  rw [hop]
  exact hx

/-- In capitals no form of the evaluator is known. -/
theorem leaves_unknown (hfold : settings.fold = .upper) (hs : s.input.Legible) (op : String)
    (args : List Expr) (hdocument : (Expr.list (.atom op :: args)).Only Expr.DocumentName)
    (htext : s.input.remaining = (Expr.list (.atom op :: args)).printed.toList ++ rest)
    (hfree : s.registry.macros.get? (upperText op) = none) :
    Leaves settings host sigil s rest (.error (.plain (.unknownOperator (upperText op))))
      s.registry := by
  refine leaves_evaluated hs rfl hdocument htext
    (x := .error (.plain (.unknownOperator (upperText op)))) ?_
  rw [hfold]
  exact Evaluation.definitions_unknown host _ (Evaluation.Operator.ofName?_upperText op) hfree

/-- **Definitions by fold.**  Where names are folded to small letters, silent evaluation of a
written definition succeeds and makes just the binding that is written, with its names folded: of
any name to any expression, and of every macro whose folded signature is accepted.  Where they are
folded to capitals, silent evaluation of any form that a name heads, a definition too, fails and
leaves the macros as they were, unless the folded head is the name of a macro. -/
theorem definitions_by_fold (settings host : Settings) (sigil : String) {s : RunState}
    (hs : s.input.Legible) (rest : List Char) :
    (settings.fold = .lower →
      (∀ (name : String) (e : Expr), Expr.DocumentName name → e.Only Expr.DocumentName →
        s.input.remaining = (e.replacing name).printed.toList ++ rest →
        Leaves settings host sigil s rest (.ok ())
          (s.registry.defineSymbol (lowerText name) (e.mapNames lowerText))) ∧
      (∀ (signature body : Expr) (t : Template),
        signature.Only Expr.DocumentName → body.Only Expr.DocumentName →
        s.input.remaining =
          (Expr.list [.atom "define-macro", signature, body]).printed.toList ++ rest →
        Evaluation.definition "define-macro"
          [signature.mapNames lowerText, body.mapNames lowerText] = .ok t →
        (signature.mapNames lowerText = .list (.atom t.name :: t.params.written) ∧
          body.mapNames lowerText = t.body) ∧
        Leaves settings host sigil s rest (.ok ())
          (s.registry.defineMacro t.name (.ofTemplate t)))) ∧
    (settings.fold = .upper →
      ∀ (op : String) (args : List Expr), (Expr.list (.atom op :: args)).Only Expr.DocumentName →
        s.input.remaining = (Expr.list (.atom op :: args)).printed.toList ++ rest →
        s.registry.macros.get? (upperText op) = none →
        Leaves settings host sigil s rest (.error (.plain (.unknownOperator (upperText op))))
          s.registry) := by
  refine ⟨fun hfold => ⟨?_, ?_⟩, fun hfold => ?_⟩
  · intro name e hname he htext
    have hdocument : (e.replacing name).Only Expr.DocumentName :=
      Expr.only_list_cons.2 ⟨Expr.only_atom.2 (by decide), Expr.only_list_cons.2
        ⟨Expr.only_atom.2 hname, Expr.only_list_cons.2 ⟨he, nofun⟩⟩⟩
    exact leaves_operator hfold hs (by decide) _ hdocument htext
      (Evaluation.definitions_replacing host _ _ _)
  · intro signature body t hsignature hbody htext ht
    obtain ⟨hwritten, htbody, -⟩ := Evaluation.definition_eq_ok_iff.1 ht
    have hdocument : (Expr.list [.atom "define-macro", signature, body]).Only Expr.DocumentName :=
      Expr.only_list_cons.2 ⟨Expr.only_atom.2 (by decide), Expr.only_list_cons.2
        ⟨hsignature, Expr.only_list_cons.2 ⟨hbody, nofun⟩⟩⟩
    exact ⟨⟨hwritten, htbody⟩, leaves_operator hfold hs (by decide) _ hdocument htext
      (Evaluation.definitions_defineMacro host ht _)⟩
  · intro op args hdocument htext hfree
    exact leaves_unknown hfold hs op args hdocument htext hfree

/-- A replacement and a macro in small letters, and the replacement in capitals. -/
theorem definitions_by_fold_mixed :
    let read (text : String) : RunState := ⟨.ofText "document" text, .empty, .text ""⟩
    let one := read "(define-symbol-macro Ab (C \"D\"))."
    let two := read "(define-macro (M X ...Y) (X F Y))"
    let t : Template :=
      ⟨"m", { required := ["x"], rest := some "y" }, .list [.atom "x", .atom "f", .atom "y"]⟩
    one.input.Legible ∧ two.input.Legible ∧
    Leaves {} {} "#." one ['.'] (.ok ())
      (Registry.empty.defineSymbol "ab" (.list [.atom "c", .str "D"])) ∧
    Leaves {} {} "#." two [] (.ok ()) (Registry.empty.defineMacro "m" (.ofTemplate t)) ∧
    Leaves { fold := .upper } {} "#." one ['.']
      (.error (.plain (.unknownOperator "DEFINE-SYMBOL-MACRO"))) Registry.empty := by
  intro read one two t
  have hone : one.input.Legible := Input.legible_ofText "document" _
  have htwo : two.input.Legible := Input.legible_ofText "document" _
  obtain ⟨hsymbol, -⟩ := (definitions_by_fold {} {} "#." hone ['.']).1 rfl
  obtain ⟨-, hdefine⟩ := (definitions_by_fold {} {} "#." htwo []).1 rfl
  have hupper := (definitions_by_fold { fold := .upper } {} "#." hone ['.']).2 rfl
  refine ⟨hone, htwo, ?_, ?_, ?_⟩
  · exact hsymbol "Ab" (.list [.atom "C", .str "D"]) (by decide) (by decide)
      (Input.remaining_ofText "document" _)
  · exact (hdefine (.list [.atom "M", .atom "X", .atom "...Y"])
      (.list [.atom "X", .atom "F", .atom "Y"]) t (by decide) (by decide)
      (Input.remaining_ofText "document" _) rfl).2
  · exact hupper "define-symbol-macro" [.atom "Ab", .list [.atom "C", .str "D"]] (by decide)
      (Input.remaining_ofText "document" _) rfl

/-- In capitals neither a replacement nor a macro is defined, though the macro would be in small
letters. -/
theorem definitions_fail_in_capitals :
    let read (text : String) : RunState := ⟨.ofText "document" text, .empty, .text ""⟩
    let one := read "(define-symbol-macro a b)"
    let two := read "(define-macro (m x) x)"
    let settings : Settings := { fold := .upper }
    ¬ Leaves settings settings "#." one [] (.ok ())
        (Registry.empty.defineSymbol "A" (.atom "B")) ∧
    Leaves {} {} "#." two [] (.ok ())
      (Registry.empty.defineMacro "m" (.ofTemplate ⟨"m", { required := ["x"] }, .atom "x"⟩)) ∧
    ¬ ∃ r, Leaves settings settings "#." two [] (.ok ()) r := by
  intro read one two settings
  have hone : one.input.Legible := Input.legible_ofText "document" _
  have htwo : two.input.Legible := Input.legible_ofText "document" _
  refine ⟨fun h => ?_, ?_, fun ⟨r, h⟩ => ?_⟩
  · have hfail : Leaves settings settings "#." one []
        (.error (.plain (.unknownOperator (upperText "define-symbol-macro")))) .empty :=
      leaves_unknown rfl hone "define-symbol-macro" [.atom "a", .atom "b"] (by decide)
        (Input.remaining_ofText "document" _) rfl
    cases (h.unique hfail).1
  · have hlower : ({} : Settings).fold = .lower := rfl
    exact leaves_operator hlower htwo (by decide) [.list [.atom "m", .atom "x"], .atom "x"]
      (by decide) (Input.remaining_ofText "document" _)
      (Evaluation.definitions_defineMacro {} rfl .empty)
  · have hfail : Leaves settings settings "#." two []
        (.error (.plain (.unknownOperator (upperText "define-macro")))) .empty :=
      leaves_unknown rfl htwo "define-macro" [.list [.atom "m", .atom "x"], .atom "x"] (by decide)
        (Input.remaining_ofText "document" _) rfl
    cases (h.unique hfail).1

end Handler

end Sigil
