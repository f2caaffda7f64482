import Sigil.Command.Execution
import Sigil.Proofs.Output
import Sigil.Proofs.PrintedReading
import Sigil.Proofs.Recording

/-!
# Expanding a file and processing a document

`Command.expandInput_eq_process`: expanding the expressions of a file comes to what a document comes
to that has a directive for each of them.  The one reads everything first and goes through the
expressions; the other looks for sigils and reads one expression behind each.

1. Recording steps does not show in the result of an expansion (`Registry.expandTraced_fst`).
2. The first entry of a table whose sigil stands in the text is run behind it (`exists_ran`), and
   with a built-in handler that is one round of the document (`exists_advance`).
3. The directive of an expression takes one round or two, and does what is done with the expression
   of a file (`processFrom_directives`).
-/

namespace Sigil

/-! ## Directives in a document -/

section Directives

variable (cx : Context) (before : List Entry) (e : Entry) {s : RunState} {r : List Char}

/-- **Trying a table.** The first entry whose sigil stands in the text is run behind it. -/
theorem exists_ran (after : List Entry) {c : Char} (hl : s.input.Legible)
    (hbefore : ∀ p ∈ before, ¬ p.first :: p.rest <+: c :: s.input.remaining)
    (he : c :: s.input.remaining = e.first :: e.rest ++ r) (start : Nat) (cut : CutShort) :
    ∃ j : Input, j.Legible ∧ j.remaining = r ∧
      dispatchFrom cx start c cut (before ++ e :: after) s =
        ((e.directive.run cx e.sigil { s with input := j }).1.map fun _ => true,
          (e.directive.run cx e.sigil { s with input := j }).2) := by
  induction before generalizing s cut with
  | nil =>
    obtain ⟨hc, hr⟩ := List.cons.inj he
    have hm := matches_matchRest e.rest hl
    rw [List.nil_append, dispatchFrom_cons, if_pos hc.symm]
    generalize matchRest e.rest s.input = x at hm
    rw [hr] at hm
    cases hm with
    | @full j hj hfull => exact ⟨j, hj, List.append_cancel_left hfull, rfl⟩
    | cutShort stop hj hjr hpre hne =>
      exact absurd (hpre.eq_of_length_le (by simp)) hne
    | differs hj hjr hn hn' => exact absurd (List.prefix_append ..) hn
  | cons p before ih =>
    obtain ⟨hp, hbefore⟩ := List.forall_mem_cons.1 hbefore
    rw [List.cons_append, dispatchFrom_cons]
    split_ifs with hc
    · have hm := matches_matchRest p.rest hl
      generalize matchRest p.rest s.input = x at hm
      generalize hr : s.input.remaining = t at hm hp hbefore he
      cases hm with
      | full hj hfull =>
        refine absurd ?_ hp
        rw [hc, ← hfull]
        exact List.cons_prefix_cons.2 ⟨rfl, List.prefix_append ..⟩
      | @cutShort j stop hj hjr =>
        exact ih (s := { s with input := j }) hj (hjr ▸ hbefore) (hjr ▸ he) _
      | @differs j hj hjr =>
        exact ih (s := { s with input := j }) hj (hjr ▸ hbefore) (hjr ▸ he) _
    · exact ih hl hbefore he cut

/-- A round in which a handler yields a text or fails. -/
def Round.ofYield : Except Failure String → Round
  | .error f => .fails f
  | .ok text => .writes text

/-- **One round** with a directive: its expression is read, and the handler yields its text. -/
theorem exists_advance (after : List Entry) (hl : s.input.Legible) {h : Handler}
    (hd : e.directive = h.directive)
    (hbefore : ∀ p ∈ before, ¬ p.first :: p.rest <+: s.input.remaining)
    (hs : s.input.remaining = e.first :: e.rest ++ r) {x : Expr} {rest : List Char}
    (hread : Datum.Plain.read (h.casing cx.settings) r = .ok (x, rest)) :
    ∃ j : Input, j.Legible ∧ j.remaining = rest ∧
      advance cx (before ++ e :: after) s =
        (Round.ofYield (h.yield cx x s.registry).1).into j (h.yield cx x s.registry).2 s.sink := by
  have hn := Input.reads_next hl.setMark
  rw [Input.remaining_setMark, hs] at hn
  rcases hi : s.input.setMark.next with ⟨f | _ | c, i⟩
  · exact (hi ▸ hn).ne_error.elim
  · cases (hi ▸ hn).of_none.1
  · obtain ⟨hr, hli⟩ := (hi ▸ hn).of_some
    rw [hs, hr] at hbefore
    obtain ⟨k, hlk, hrk, hran⟩ := exists_ran cx before e (s := { s with input := i }) after hli
      hbefore hr.symm (i.behind c) none
    have hx := Datum.agrees_read (h.casing cx.settings) hlk
    rw [hrk, hread] at hx
    obtain ⟨j, hj, hlj, hrj⟩ := hx.exists_ok
    refine ⟨j, hlj, hrj, ?_⟩
    simp only [advance, hi]
    rw [dispatch, Run.bind_apply]
    show settled c (dispatchFrom cx (i.behind c) c none _ { s with input := i }) = _
    rw [hran, hd, h.directive_apply]
    simp only [hj, h.effect_eq_emitted]
    rcases h.yield cx x s.registry with ⟨f | text, registry⟩
    · rfl
    · simp only [Round.ofYield, Round.into, Sink.emitted]
      rcases s.sink.emit text with ⟨f | _, sink⟩ <;> rfl

end Directives

/-- **One round** at a line feed copies it, if no sigil has one. -/
theorem exists_advance_lineFeed (cx : Context) {table : List Entry}
    (hn : ∀ e ∈ table, e.InLine) {s : RunState} (hl : s.input.Legible) {r : List Char}
    (hs : s.input.remaining = '\n' :: r) :
    ∃ j : Input, j.Legible ∧ j.remaining = r ∧
      advance cx table s = (Round.writes "\n").into j s.registry s.sink := by
  have hi := Input.reads_next hl.setMark
  rw [Input.remaining_setMark, hs] at hi
  refine ⟨s.input.setMark.next.2, hi.legible, hi.remaining, ?_⟩
  have hnext : s.input.setMark.next = (.ok (some '\n'), s.input.setMark.next.2) :=
    Prod.ext hi.value rfl
  rw [advance, hnext]
  simp only [dispatch_lineFeed hn, settled, Round.into, Sink.emitChar]
  rfl

namespace Command

/-! ## A directive for each expression -/

/-- The directive that does in a document what is done with an expression of a file. -/
def directiveText (e : Expr) : String :=
  if isDefinition e then "#." ++ e.printed else "#:" ++ e.printed ++ "\n"

theorem name?_of_isDefinition {e : Expr} (h : isDefinition e = true) : e.name? = none := by
  cases e with
  | atom name => simp [isDefinition, Expr.head?] at h
  | str text => rfl
  | list items => rfl

theorem inLine_of_mem_standardTable : ∀ e ∈ standardTable, e.InLine := by decide

/-- The head of the table of built-in sigils. -/
theorem standardTable_eq : ∃ after, standardTable =
    ⟨'#', ['.'], Handler.evaluateSilently.directive⟩ ::
      ⟨'#', [':'], Handler.printExpanded.directive⟩ :: after := ⟨_, rfl⟩

section

variable {settings : Settings} {e : Expr} {s : RunState} {rest : List Char}

/-- A definition in a document is evaluated. -/
theorem exists_advance_definition (hr : e.Only Expr.DocumentName)
    (hf : e.Only fun name => settings.fold.apply name = name) (hd : isDefinition e = true)
    (hl : s.input.Legible) (hs : s.input.remaining = (directiveText e).toList ++ rest) :
    ∃ j : Input, j.Legible ∧ j.remaining = rest ∧
      advance (Processor.make settings standardTable).context standardTable s =
        match Host.definitions settings e s.registry with
        | (.error f, registry) => .inl (.error f, ⟨j, registry, s.sink⟩)
        | (.ok _, registry) => .inr ⟨j, registry, s.sink⟩ := by
  obtain ⟨after, htable⟩ := standardTable_eq
  have hread : Datum.Plain.read (.fold settings.fold) (e.printed.toList ++ rest) = .ok (e, rest) :=
    Datum.read_printed hr hf fun hn => absurd (name?_of_isDefinition hd) hn
  have htext : s.input.remaining = '#' :: ['.'] ++ (e.printed.toList ++ rest) := by
    rw [hs, directiveText, if_pos hd, String.toList_append]
    rfl
  obtain ⟨j, hlj, hrj, hj⟩ := exists_advance (Processor.make settings standardTable).context []
    ⟨'#', ['.'], Handler.evaluateSilently.directive⟩
    (⟨'#', [':'], Handler.printExpanded.directive⟩ :: after) hl rfl nofun htext hread
  refine ⟨j, hlj, hrj, ?_⟩
  rw [htable]
  refine hj.trans ?_
  simp only [Handler.yield, Processor.make]
  rcases Host.definitions settings e s.registry with ⟨f | value, registry⟩
  · rfl
  · simp only [Except.map, Round.ofYield, Round.into, Sink.emit_empty]

/-- Any other expression is expanded and printed. -/
theorem exists_advance_expanded (hr : e.Only Expr.DocumentName)
    (hf : e.Only fun name => settings.fold.apply name = name) (hd : isDefinition e = false)
    (hl : s.input.Legible) (hs : s.input.remaining = (directiveText e).toList ++ rest) :
    ∃ j : Input, j.Legible ∧ j.remaining = '\n' :: rest ∧
      advance (Processor.make settings standardTable).context standardTable s =
        (Round.ofYield ((s.registry.expand settings e).map Expr.printed)).into j s.registry
          s.sink := by
  obtain ⟨after, htable⟩ := standardTable_eq
  have hread : Datum.Plain.read (.fold settings.fold) (e.printed.toList ++ '\n' :: rest) =
      .ok (e, '\n' :: rest) :=
    Datum.read_printed hr hf fun _ => Datum.delimited_cons rest (by decide)
  have htext : s.input.remaining = '#' :: [':'] ++ (e.printed.toList ++ '\n' :: rest) := by
    rw [hs, directiveText, if_neg (by simp [hd]), String.toList_append, String.toList_append]
    simp
  have hbefore : ∀ p ∈ [(⟨'#', ['.'], Handler.evaluateSilently.directive⟩ : Entry)],
      ¬ p.first :: p.rest <+: s.input.remaining := by
    rw [htext]
    simp [List.cons_prefix_cons]
  obtain ⟨j, hlj, hrj, hj⟩ := exists_advance (Processor.make settings standardTable).context _
    ⟨'#', [':'], Handler.printExpanded.directive⟩ after hl rfl hbefore htext hread
  refine ⟨j, hlj, hrj, ?_⟩
  rw [htable]
  exact hj

end

/-- **Rounds.** The directives of expressions do what is done with the expressions in turn. -/
theorem processFrom_directives (settings : Settings) {es : List Expr}
    (hr : ∀ e ∈ es, e.Only Expr.DocumentName)
    (hf : ∀ e ∈ es, e.Only fun name => settings.fold.apply name = name) {s : RunState}
    (hl : s.input.Legible) {out : String}
    (hs : s.input.remaining = (String.join (es.map directiveText)).toList)
    (hsink : s.sink = .text out) :
    let x := processFrom (Processor.make settings standardTable).context standardTable s
    expandForms settings none s.registry out es = (x.1, x.2.sink.contents) := by
  induction es generalizing s out with
  | nil =>
    have hn := Input.reads_next hl.setMark
    rw [Input.remaining_setMark, hs] at hn
    have hnext : s.input.setMark.next = (.ok none, s.input.setMark.next.2) :=
      Prod.ext hn.value rfl
    rw [processFrom_advance, advance, hnext]
    simp only [hsink]
    rfl
  | cons e es ih =>
    obtain ⟨hre, hr⟩ := List.forall_mem_cons.1 hr
    obtain ⟨hfe, hf⟩ := List.forall_mem_cons.1 hf
    rw [List.map_cons, String.join_cons, String.toList_append] at hs
    rw [processFrom_advance]
    by_cases hd : isDefinition e = true
    · obtain ⟨j, hlj, hrj, hj⟩ := exists_advance_definition hre hfe hd hl hs
      rw [hj, expandForms, if_pos hd]
      rcases Host.definitions settings e s.registry with ⟨f | value, registry⟩
      · simp only [hsink]
        rfl
      · exact ih hr hf (s := ⟨j, registry, s.sink⟩) hlj hrj hsink
    · obtain ⟨j, hlj, hrj, hj⟩ := exists_advance_expanded hre hfe (Bool.eq_false_iff.2 hd) hl hs
      rw [hj, expandForms, if_neg hd]
      have htraced := s.registry.expandTraced_fst settings e
      generalize s.registry.expandTraced settings e = y at htraced
      obtain ⟨y, steps⟩ := y
      simp only at htraced
      rw [← htraced, hsink]
      cases y with
      | error f => rfl
      | ok expanded =>
        -- the line feed behind the directive is copied
        obtain ⟨k, hlk, hrk, hk⟩ := exists_advance_lineFeed
          (Processor.make settings standardTable).context inLine_of_mem_standardTable
          (s := ⟨j, s.registry, .text (out ++ expanded.printed)⟩) hlj hrj
        have hrest := ih hr hf (s := ⟨k, s.registry, .text (out ++ expanded.printed ++ "\n")⟩) hlk
          hrk rfl
        simp only [Except.map, Round.ofYield, Round.into, Sink.emit, Sum.elim_inr,
          String.append_empty]
        rw [processFrom_advance, hk]
        exact hrest

/-! ## Files -/

/-- Expressions on lines of their own are read in turn. -/
theorem readAll_lines (casing : Text.Casing) {es : List Expr}
    (hr : ∀ e ∈ es, e.Only Expr.DocumentName)
    (hf : ∀ e ∈ es, e.Only fun name => casing.apply name = name) {i : Input} (hi : i.Legible)
    (hs : Datum.Plain.skip i.remaining =
      Datum.Plain.skip (String.join (es.map fun e => e.printed ++ "\n")).toList) :
    (Datum.readAll casing i).1 = .ok es := by
  induction es generalizing i with
  | nil => exact Datum.readAll_of_end hi hs
  | cons e es ih =>
    obtain ⟨hre, hr⟩ := List.forall_mem_cons.1 hr
    obtain ⟨hfe, hf⟩ := List.forall_mem_cons.1 hf
    rw [List.map_cons, String.join_cons] at hs
    simp only [String.toList_append, List.append_assoc] at hs
    generalize hrest : (String.join (es.map fun e => e.printed ++ "\n")).toList = rest at hs
    have hread : Datum.Plain.read casing i.remaining = .ok (e, '\n' :: rest) := by
      rw [Datum.Plain.read, hs, ← Datum.Plain.read]
      exact Datum.read_printed hre hfe fun _ => Datum.delimited_cons rest (by decide)
    obtain ⟨k, hlk, hrk, hk⟩ := Datum.exists_readAll hi hread
    have htail : (Datum.readAll casing k).1 = .ok es := by
      refine ih hr hf hlk ?_
      rw [hrk, hrest]
      rfl
    rw [hk, htail]
    rfl

/-- **Agreement.**  Expanding a file that has expressions on its lines prints what a document writes
that evaluates the definitions among them and prints the others, each on a line of its own; and both
go through, or both end with the same failure. -/
theorem expandInput_eq_process (settings : Settings) (path name : String) (es : List Expr)
    (hr : ∀ e ∈ es, e.Only Expr.DocumentName)
    (hf : ∀ e ∈ es, e.Only fun name => settings.fold.apply name = name) :
    let file := String.join (es.map fun e => e.printed ++ "\n")
    let document := String.join (es.map directiveText)
    let x := (Processor.make settings standardTable).process (.ofText name document) (.text "")
    expandInput settings none (inputOf path (.file file.toUTF8)) = (x.1, x.2.sink.contents) := by
  intro file document x
  have hread : (Datum.readAll (.fold settings.fold) (inputOf path (.file file.toUTF8))).1 =
      .ok es := by
    rw [inputOf, Input.ofBytes_toUTF8]
    exact readAll_lines (.fold settings.fold) hr hf (Input.legible_ofText path file)
      (by rw [Input.remaining_ofText])
  have hdocument := processFrom_directives settings hr hf
    (s := ⟨.ofText name document, .empty, .text ""⟩) (Input.legible_ofText name document)
    (Input.remaining_ofText name document) rfl
  rw [expandInput]
  generalize Datum.readAll (.fold settings.fold) (inputOf path (.file file.toUTF8)) = y at hread
  obtain ⟨y, i⟩ := y
  obtain rfl : y = .ok es := hread
  exact hdocument

/-- A definition, its use, and an expression with too many arguments: the use is printed, and both
end with the same failure. -/
theorem expandInput_eq_process_arity :
    let es : List Expr :=
      [.list [.atom "define-macro", .list [.atom "m", .atom "x"], .list [.atom "x", .str "a\nb"]],
        .list [.atom "m", .atom "y"], .list [.atom "m", .atom "y", .atom "z"], .atom "w"]
    let document := "#.(define-macro (m x) (x \"a\nb\"))#:(m y)\n#:(m y z)\n#:w\n"
    let f : Failure := .plain (.wrongArity "m" (.exactly 1) 2)
    ((∀ e ∈ es, e.Only Expr.DocumentName) ∧
      (∀ e ∈ es, e.Only fun name => Text.Fold.lower.apply name = name)) ∧
    expandInput {} none (inputOf "forms" (.file
        "(define-macro (m x) (x \"a\nb\"))\n(m y)\n(m y z)\nw\n".toUTF8)) =
      (.error f, "(y \"a\nb\")\n") ∧
    (Processor.standard.process (.ofText "document" document) (.text "")).1 = .error f := by
  intro es document f
  have hr : ∀ e ∈ es, e.Only Expr.DocumentName := by decide
  have hf : ∀ e ∈ es, e.Only fun name => Text.Fold.lower.apply name = name := by decide +kernel
  have h := expandInput_eq_process {} "forms" "document" es hr hf
  have hfile : String.join (es.map fun e => e.printed ++ "\n") =
      "(define-macro (m x) (x \"a\nb\"))\n(m y)\n(m y z)\nw\n" := by decide +kernel
  have hdocument : String.join (es.map directiveText) = document := by decide +kernel
  have hresult : (Processor.standard.process (.ofText "document" document) (.text "")).1 =
      .error f := Processor.process_eq_of_within Prod.fst 4 (by decide +kernel)
  have hout : (Processor.standard.process (.ofText "document" document)
      (.text "")).2.sink.contents = "(y \"a\nb\")\n" :=
    Processor.process_eq_of_within (·.2.sink.contents) 4 (by decide +kernel)
  simp only [hfile, hdocument] at h
  rw [← Processor.standard, hresult, hout] at h
  exact ⟨⟨hr, hf⟩, h, hresult⟩

end Command

end Sigil
