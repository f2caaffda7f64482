import Sigil.Proofs.Preservation

/-!
# Definitions can be written out and read back

`Evaluation.definitions_reload`: whatever is evaluated, starting without macros, every macro and
every replacement in the registry can be written out as a definition, and evaluating that definition
anywhere makes the same binding.

1. Parameters are accepted exactly if they are the written form of proper ones (`params_eq_ok_iff`),
   and so is a definition with them (`definition_eq_ok_iff`).
2. A written definition is the printed form of an expression (`printed_defining`), so it is read
   back if its names are readable, and evaluating it makes the binding (`definitions_defining`).
3. All templates in a registry that evaluation builds are proper and readable (`reloadable`).
-/

namespace Sigil

/-! ## Parameters -/

namespace Params

/-- Parameters as they are written. -/
def written (q : Params) : List Expr :=
  q.required.map .atom ++ (q.rest.map fun x => Expr.atom (Template.dotted x)).toList

/-- Parameters that can be told apart, from each other and from the names in `seen`. -/
structure Proper (seen : List String) (q : Params) : Prop where
  nodup : q.required.Nodup
  required : ∀ x ∈ q.required, x ≠ "" ∧ Template.undotted? x = none ∧ x ∉ seen
  rest : ∀ x ∈ q.rest, x ≠ "" ∧ x ∉ q.required ∧ x ∉ seen

theorem proper_cons {seen : List String} {x : String} {required : List String}
    {rest : Option String} :
    Proper seen ⟨x :: required, rest⟩ ↔
      (x ≠ "" ∧ Template.undotted? x = none ∧ x ∉ seen) ∧ Proper (x :: seen) ⟨required, rest⟩ := by
  constructor
  · rintro ⟨hnodup, hrequired, hrest⟩
    obtain ⟨hx, hnodup⟩ := List.nodup_cons.1 hnodup
    obtain ⟨hproper, hrequired⟩ := List.forall_mem_cons.1 hrequired
    exact ⟨hproper, hnodup, by grind, by grind⟩
  · rintro ⟨hproper, hnodup, hrequired, hrest⟩
    have hx : x ∉ required := by grind
    exact ⟨List.nodup_cons.2 ⟨hx, hnodup⟩, by grind, by grind⟩

end Params

namespace Template

theorem toList_dotted (name : String) :
    (dotted name).toList = '.' :: '.' :: '.' :: name.toList := by
  simp [dotted]

theorem undotted?_dotted (name : String) : undotted? (dotted name) = some name := by
  rw [undotted?, toList_dotted]
  simp

theorem eq_dotted_of_undotted? {name rest : String} (h : undotted? name = some rest) :
    name = dotted rest := by
  unfold undotted? at h
  split at h
  · next cs hcs =>
    cases h
    rw [← String.toList_inj, hcs, toList_dotted, String.toList_ofList]
  · cases h

theorem undotted?_eq_none_iff {name : String} :
    undotted? name = none ↔ ¬ "...".toList <+: name.toList := by
  unfold undotted?
  split
  · next cs hcs =>
    rw [hcs]
    simp
  · next hne =>
    simp only [true_iff]
    rintro ⟨cs, hcs⟩
    exact hne cs hcs.symm

end Template

namespace Evaluation

open Template (undotted? dotted)

section

variable {k : String} {seen : List String}

theorem params_required {x : String} (hne : x ≠ "") (hdots : undotted? x = none) (hx : x ∉ seen)
    (more : List Expr) :
    params k seen (.atom x :: more) =
      (params k (x :: seen) more).map fun q => ⟨x :: q.required, q.rest⟩ := by
  have he : ¬ x.isEmpty = true := by simpa using hne
  rw [params]
  simp only [hdots, Option.getD_none, he, hx, ↓reduceIte]
  cases params k (x :: seen) more <;> rfl

theorem params_rest {x : String} (hne : x ≠ "") (hx : x ∉ seen) :
    params k seen [.atom (dotted x)] = .ok ⟨[], some x⟩ := by
  have he : ¬ x.isEmpty = true := by simpa using hne
  rw [params]
  simp [Template.undotted?_dotted, hne, hx]

theorem proper_of_params {es : List Expr} {q : Params} (h : params k seen es = .ok q) :
    es = q.written ∧ q.Proper seen := by
  fun_induction params k seen es generalizing q with
  | case1 =>
    cases h
    exact ⟨rfl, .nil, List.forall_mem_nil _, by simp⟩
  | case2 => cases h
  | case3 => cases h
  | case4 seen w more dots param hne hseen x hx =>
    rename_i hmore
    cases h
    have hparam : param = x := by simp only [param, hx, Option.getD_some]
    rw [hparam] at hne hseen
    refine ⟨?_, .nil, List.forall_mem_nil _, ?_⟩
    · rw [List.isEmpty_iff.1 hmore, Template.eq_dotted_of_undotted? hx]
      rfl
    · rintro y ⟨⟩
      exact ⟨by simpa using hne, List.not_mem_nil, hseen⟩
  | case5 => cases h
  | case6 seen w more dots param hne hseen hdots =>
    rename_i ih
    have hparam : param = w := by simp only [param, hdots, Option.getD_none]
    rw [hparam] at hne hseen ih h
    cases hp : params k (w :: seen) more with
    | error f =>
      rw [hp] at h
      cases h
    | ok later =>
      rw [hp] at h
      cases h
      obtain ⟨hmore, hproper⟩ := ih hp
      exact ⟨congrArg (Expr.atom w :: ·) hmore,
        Params.proper_cons.2 ⟨⟨by simpa using hne, hdots, hseen⟩, hproper⟩⟩
  | case7 => cases h

theorem params_written {q : Params} (h : q.Proper seen) : params k seen q.written = .ok q := by
  obtain ⟨required, rest⟩ := q
  induction required generalizing seen with
  | nil =>
    cases rest with
    | none => rfl
    | some x =>
      obtain ⟨hne, -, hx⟩ := h.rest x rfl
      exact params_rest hne hx
  | cons x required ih =>
    obtain ⟨⟨hne, hdots, hx⟩, hproper⟩ := Params.proper_cons.1 h
    have hlater := ih hproper
    show params k seen (.atom x :: Params.written ⟨required, rest⟩) = _
    rw [params_required hne hdots hx, hlater]
    rfl

/-- **Parameters** are accepted exactly if they are the written form of proper ones. -/
theorem params_eq_ok_iff {es : List Expr} {q : Params} :
    params k seen es = .ok q ↔ es = q.written ∧ q.Proper seen := by
  constructor
  · exact proper_of_params
  · rintro ⟨rfl, h⟩
    exact params_written h

end

theorem template_eq_ok_iff {name : String} {written : List Expr} {body : Expr} {t : Template} :
    template name written body = .ok t ↔
      t.name = name ∧ t.body = body ∧ written = t.params.written ∧ t.params.Proper [] := by
  have htemplate : template name written body =
      (params name [] written).map fun q => ⟨name, q, body⟩ := by
    unfold template
    cases params name [] written <;> rfl
  rw [htemplate, ← params_eq_ok_iff (k := name)]
  cases hp : params name [] written with
  | error f => simp [Except.map]
  | ok q =>
    constructor
    · rintro ⟨⟩
      exact ⟨rfl, rfl, rfl⟩
    · rintro ⟨rfl, rfl, ⟨⟩⟩
      rfl

/-- A macro definition is accepted exactly if it is the written form of a template with proper
parameters. -/
theorem definition_eq_ok_iff {operator : String} {signature body : Expr} {t : Template} :
    definition operator [signature, body] = .ok t ↔
      signature = .list (.atom t.name :: t.params.written) ∧ body = t.body ∧
        t.params.Proper [] := by
  constructor
  · intro h
    unfold definition at h
    split at h
    · next head written body' hargs =>
      cases hargs
      cases head with
      | atom name =>
        obtain ⟨rfl, rfl, rfl, hproper⟩ := template_eq_ok_iff.1 h
        exact ⟨rfl, rfl, hproper⟩
      | str text => cases h
      | list items => cases h
    · cases h
    · cases h
  · rintro ⟨rfl, rfl, h⟩
    exact template_eq_ok_iff.2 ⟨rfl, rfl, rfl, h⟩

end Evaluation

/-! ## Written definitions -/

/-- The definition that makes a template. -/
def Template.defining (t : Template) : Expr :=
  .list [.atom "define-macro", .list (.atom t.name :: t.params.written), t.body]

/-- The definition that makes a replacement. -/
def Expr.replacing (name : String) (e : Expr) : Expr :=
  .list [.atom "define-symbol-macro", .atom name, e]

theorem Template.printedRest_written (q : Params) :
    Expr.printedRest q.written = printedParams q ++ ")" := by
  obtain ⟨required, rest⟩ := q
  induction required with
  | nil => cases rest <;> simp [Params.written, printedParams, Expr.printedRest, Expr.printed]
  | cons x required ih =>
    have hcons : Params.written ⟨x :: required, rest⟩ =
        .atom x :: Params.written ⟨required, rest⟩ := rfl
    rw [hcons, Expr.printedRest, ih]
    simp [printedParams, Expr.printed, String.append_assoc]

theorem Template.printed_defining (t : Template) :
    t.defining.printed = "(define-macro " ++ t.printed ++ ")" := by
  rw [← String.toList_inj]
  simp [defining, printed, Expr.printed, Expr.printedRest, printedRest_written]

theorem Expr.printed_replacing (name : String) (e : Expr) :
    (replacing name e).printed = "(define-symbol-macro " ++ name ++ " " ++ e.printed ++ ")" := by
  rw [← String.toList_inj]
  simp [replacing, printed, printedRest]

namespace Evaluation

/-- A readable expression is read back from its printed form. -/
theorem parse_printed_keep {e : Expr} (h : e.Readable) : Datum.parse .keep e.printed = .ok e := by
  rw [Datum.parse_printed .keep h]
  exact congrArg _ (Expr.mapNames_id e)

/-- Evaluating an accepted macro definition makes the macro. -/
theorem definitions_defineMacro (s : Settings) {args : List Expr} {t : Template}
    (h : definition "define-macro" args = .ok t) (r : Registry) :
    Host.definitions s (.list (.atom "define-macro" :: args)) r =
      (.ok (.atom t.name), r.defineMacro t.name (.ofTemplate t)) := by
  unfold Host.definitions
  rw [evalWithin_operator s s.maxDepth _ rfl, apply, h]
  rfl

/-- Evaluating the definition of a template makes it. -/
theorem definitions_defining (s : Settings) {t : Template} (h : t.params.Proper []) (r : Registry) :
    Host.definitions s t.defining r =
      (.ok (.atom t.name), r.defineMacro t.name (.ofTemplate t)) :=
  definitions_defineMacro s (definition_eq_ok_iff.2 ⟨rfl, rfl, h⟩) r

/-- Evaluating the definition of a replacement makes it. -/
theorem definitions_replacing (s : Settings) (k : String) (e : Expr) (r : Registry) :
    Host.definitions s (e.replacing k) r = (.ok (.atom k), r.defineSymbol k e) := by
  unfold Host.definitions Expr.replacing
  rw [evalWithin_operator s s.maxDepth _ rfl]
  rfl

/-! ## Registries -/

/-- A macro that can be written out: it instantiates a template of its own name, with proper
parameters and names that can be read back. -/
def Reloadable (k : String) (m : Macro) : Prop :=
  ∃ t : Template, m.template = some t ∧ m.transform = t.instantiate ∧ t.name = k ∧
    t.params.Proper [] ∧ t.defining.Readable

theorem reloadable_ofTemplate {k : String} {written : List Expr} {body : Expr} {t : Template}
    (h : template k written body = .ok t) (hk : Expr.ReadableName k)
    (hwritten : ∀ e ∈ written, e.Readable) (hbody : body.Readable) :
    Reloadable k (.ofTemplate t) := by
  obtain ⟨rfl, rfl, rfl, hproper⟩ := template_eq_ok_iff.1 h
  refine ⟨t, rfl, rfl, rfl, hproper, ?_⟩
  have hsignature : (Expr.list (.atom t.name :: t.params.written)).Readable :=
    Expr.only_list_cons.2 ⟨Expr.only_atom.2 hk, Expr.only_list.2 hwritten⟩
  exact Expr.only_list_cons.2 ⟨Expr.only_atom.2 (by decide),
    Expr.only_list_cons.2 ⟨hsignature, Expr.only_list.2 (List.forall_mem_singleton.2 hbody)⟩⟩

/-- Evaluation builds registries that can be written out. -/
def reloadable (s : Settings) : Invariant s where
  Name := Expr.ReadableName
  Bound := Reloadable
  Failing _ := True
  nil := by decide
  plain _ := trivial
  stamp _ := id
  ofTemplate := reloadable_ofTemplate
  expand {r e} hr he := by
    have honly : r.Only Expr.ReadableName := by
      refine ⟨fun k m hm => ?_, fun k x hx => (hr.symbols k x hx).2⟩
      obtain ⟨t, htemplate, htransform, -, -, hreadable⟩ := hr.macros k m hm
      obtain ⟨-, hrest⟩ := Expr.only_list_cons.1 hreadable
      obtain ⟨-, hrest⟩ := Expr.only_list_cons.1 hrest
      exact ⟨t, htemplate, htransform, (Expr.only_list_cons.1 hrest).1⟩
    exact .of_gives (honly.expand s he) fun _ _ => trivial

/-- **Runs.** All registries that evaluation builds have the invariant. -/
theorem holds_foldl {s : Settings} (I : Invariant s) {es : List Expr}
    (hes : ∀ e ∈ es, e.Only I.Name) {r : Registry} (hr : I.Holds r) :
    I.Holds (es.foldl (fun r e => (Host.definitions s e r).2) r) := by
  induction es generalizing r with
  | nil => exact hr
  | cons e es ih =>
    obtain ⟨he, hes⟩ := List.forall_mem_cons.1 hes
    exact ih hes (Invariant.keeps_evalWithin I (s.maxDepth + 1) he r hr).1

/-- **Definitions reload.**  Let expressions that were read be evaluated in turn, whether they fail
or not, starting without macros.  Every macro of the registry is a template of its own name with
parameters that can be told apart; what it is written as is a definition, which makes the same
template in any registry.  So it is with replacements. -/
theorem definitions_reload (s : Settings) {es : List Expr}
    (hes : ∀ e ∈ es, ∃ text, Datum.parse .keep text = .ok e) :
    let r := es.foldl (fun r e => (Host.definitions s e r).2) .empty
    (∀ k m, r.macros.get? k = some m → ∃ t : Template,
      (m.template = some t ∧ m.transform = t.instantiate ∧ t.name = k) ∧
      (t.params.required.Nodup ∧
        (∀ x ∈ t.params.required, x ≠ "" ∧ ¬ "...".toList <+: x.toList) ∧
        ∀ x ∈ t.params.rest, x ≠ "" ∧ x ∉ t.params.required) ∧
      ∃ e, Datum.parse .keep ("(define-macro " ++ t.printed ++ ")") = .ok e ∧
        ∀ (s' : Settings) (r' : Registry), Host.definitions s' e r' =
          (.ok (.atom k), r'.defineMacro k (.ofTemplate t))) ∧
    (∀ k x, r.symbols.get? k = some x →
      ∃ e, Datum.parse .keep ("(define-symbol-macro " ++ k ++ " " ++ x.printed ++ ")") = .ok e ∧
        ∀ (s' : Settings) (r' : Registry), Host.definitions s' e r' =
          (.ok (.atom k), r'.defineSymbol k x)) := by
  intro r
  have hreadable : ∀ e ∈ es, e.Only (reloadable s).Name := by
    intro e he
    obtain ⟨text, htext⟩ := hes e he
    exact Datum.readable_of_parse htext
  have hr : (reloadable s).Holds r := holds_foldl (reloadable s) hreadable Registry.All.empty
  constructor
  · intro k m hm
    obtain ⟨t, htemplate, htransform, rfl, hproper, hread⟩ := hr.macros k m hm
    refine ⟨t, ⟨htemplate, htransform, rfl⟩, ⟨hproper.nodup, fun x hx => ?_, fun x hx => ?_⟩,
      t.defining, ?_, fun s' r' => definitions_defining s' hproper r'⟩
    · obtain ⟨hne, hdots, -⟩ := hproper.required x hx
      exact ⟨hne, Template.undotted?_eq_none_iff.1 hdots⟩
    · obtain ⟨hne, hx, -⟩ := hproper.rest x hx
      exact ⟨hne, hx⟩
    · rw [← Template.printed_defining]
      exact parse_printed_keep hread
  · intro k x hx
    obtain ⟨hk, hx⟩ := hr.symbols k x hx
    refine ⟨x.replacing k, ?_, fun s' r' => definitions_replacing s' k x r'⟩
    rw [← Expr.printed_replacing]
    refine parse_printed_keep (Expr.only_list_cons.2 ⟨Expr.only_atom.2 (by decide), ?_⟩)
    exact Expr.only_list_cons.2 ⟨Expr.only_atom.2 hk, Expr.only_list_cons.2 ⟨hx, nofun⟩⟩

/-- A macro that defines macros, a macro that it defines, and a replacement that is defined before a
form fails. -/
theorem definitions_reload_nested :
    let es : List Expr :=
      [.list [.atom "define-macro", .list [.atom "def", .atom "n", .atom "...body"],
          .list [.atom "define-macro", .list [.atom "n", .atom "a", .atom "...b"],
            .list [.atom "list", .atom "a", .atom "body"]]],
        .list [.atom "def", .atom "m", .str "x)", .atom "y"],
        .list [.atom "progn",
          .list [.atom "define-symbol-macro", .atom "q", .list [.atom "m", .str "\""]],
          .list [.atom "nothing"]]]
    let t : Template :=
      ⟨"m", { required := ["a"], rest := some "b" },
        .list [.atom "list", .atom "a", .str "x)", .atom "y"]⟩
    (∀ e ∈ es, ∃ text, Datum.parse .keep text = .ok e) ∧
    (∃ e, Datum.parse .keep "(define-macro (m a ...b) (list a \"x)\" y))" = .ok e ∧
      ∀ (s' : Settings) (r' : Registry), Host.definitions s' e r' =
        (.ok (.atom "m"), r'.defineMacro "m" (.ofTemplate t))) ∧
    ∃ e, Datum.parse .keep "(define-symbol-macro q (m \"\\\"\"))" = .ok e ∧
      ∀ (s' : Settings) (r' : Registry), Host.definitions s' e r' =
        (.ok (.atom "q"), r'.defineSymbol "q" (.list [.atom "m", .str "\""])) := by
  intro es t
  have hread : ∀ e ∈ es, e.Readable := by decide
  have hes : ∀ e ∈ es, ∃ text, Datum.parse .keep text = .ok e := fun e he =>
    ⟨e.printed, parse_printed_keep (hread e he)⟩
  obtain ⟨hmacros, hsymbols⟩ := definitions_reload {} hes
  generalize hr : es.foldl (fun r e => (Host.definitions {} e r).2) .empty = r at hmacros hsymbols
  have hm : (r.macros.get? "m").bind Macro.template = some t := by rw [← hr]; decide +kernel
  have hq : r.symbols.get? "q" = some (.list [.atom "m", .str "\""]) := by
    rw [← hr]
    decide +kernel
  obtain ⟨m, hget, htemplate⟩ := Option.bind_eq_some_iff.1 hm
  obtain ⟨t', ⟨htemplate', -⟩, -, hreload⟩ := hmacros "m" m hget
  cases htemplate.symm.trans htemplate'
  exact ⟨hes, hreload, hsymbols "q" _ hq⟩

end Evaluation

end Sigil
