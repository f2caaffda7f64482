import Sigil.Processor

/-!
# Parts of a run

What the parts of a run do.  Behind the reading of its expression a built-in handler uses the macros
and the sink only: `Handler.effect` says what it does there, and `Handler.perform_apply` that the
input stays as it is.

A document is processed in rounds, and nothing bounds their number: `runWithin` says what is known
after some of them.  What is over within a number of rounds is what the whole run comes to
(`processFrom_eq_of_within`), and two machines whose rounds correspond come to corresponding ends
after the same number of rounds, or to none (`map_runWithin`).
-/

namespace Sigil

namespace Run

theorem bind_apply {α β : Type} (x : Run α) (f : α → Run β) (s : RunState) :
    (x >>= f) s =
      match x s with
      | (.error e, t) => (.error e, t)
      | (.ok a, t) => f a t := rfl

theorem bind_pure_apply {α β : Type} (x : Run α) (f : α → β) (s : RunState) :
    (x >>= fun a => pure (f a)) s = ((x s).1.map f, (x s).2) := by
  rw [bind_apply]
  rcases x s with ⟨e | a, t⟩ <;> rfl

theorem onInput_apply {α : Type} (f : Input → Except Failure α × Input) (s : RunState) :
    Run.onInput f s = ((f s.input).1, { s with input := (f s.input).2 }) := rfl

theorem ofExcept_apply {α : Type} (x : Except Failure α) (s : RunState) :
    Run.ofExcept x s = (x, s) := by cases x <;> rfl

theorem evaluate_apply {α : Type} (x : Evaluating α) (s : RunState) :
    Run.evaluate x s = ((x s.registry).1, { s with registry := (x s.registry).2 }) := rfl

theorem expand_apply (settings : Settings) (e : Expr) (s : RunState) :
    Run.expand settings e s = (s.registry.expand settings e, s) := by
  rw [Run.expand, bind_apply]
  exact ofExcept_apply _ s

theorem render_apply (settings : Settings) (e : Expr) (s : RunState) :
    Run.render settings e s = (s.registry.render settings e, s) := by
  rw [Run.render, bind_apply]
  exact ofExcept_apply _ s

end Run

/-! ## Handlers -/

/-- Writes a text, unless there is a failure in its place. -/
def Sink.emitted (sink : Sink) (registry : Registry) :
    Except Failure String → Except Failure Unit × Registry × Sink
  | .error f => (.error f, registry, sink)
  | .ok t => ((sink.emit t).1, registry, (sink.emit t).2)

/-- What a handler does with the macros and the sink. -/
def Handler.effect (h : Handler) (cx : Context) (e : Expr) (registry : Registry) (sink : Sink) :
    Except Failure Unit × Registry × Sink :=
  match h with
  | .printExpanded => sink.emitted registry ((registry.expand cx.settings e).map Expr.printed)
  | .evaluateSilently =>
    (Except.map (fun _ => ()) (cx.host e registry).1, (cx.host e registry).2, sink)
  | .renderEvaluated =>
    match cx.host e registry with
    | (.error f, registry) => (.error f, registry, sink)
    | (.ok value, registry) => sink.emitted registry (registry.render cx.settings value)
  | .renderExpanded =>
    sink.emitted registry ((registry.expand cx.settings e).bind (registry.render cx.settings))

theorem Run.bind_emit_apply {x : Run String} {y : Except Failure String} {s t : RunState}
    (h : x s = (y, t)) :
    (x >>= Run.emit) s =
      ((t.sink.emitted t.registry y).1,
        { t with
          registry := (t.sink.emitted t.registry y).2.1
          sink := (t.sink.emitted t.registry y).2.2 }) := by
  rw [Run.bind_apply, h]
  cases y <;> rfl

/-- **Performing.** A handler leaves the input alone. -/
theorem Handler.perform_apply (h : Handler) (cx : Context) (e : Expr) (s : RunState) :
    h.perform cx e s =
      ((h.effect cx e s.registry s.sink).1,
        { s with
          registry := (h.effect cx e s.registry s.sink).2.1
          sink := (h.effect cx e s.registry s.sink).2.2 }) := by
  cases h with
  | printExpanded =>
    show (Run.expand cx.settings e >>= fun x => Run.emit x.printed) s = _
    rw [Run.bind_apply, Run.expand_apply, effect]
    cases s.registry.expand cx.settings e <;> rfl
  | evaluateSilently =>
    show (Run.evaluate (cx.host e) >>= fun _ => pure ()) s = _
    rw [Run.bind_pure_apply]
    rfl
  | renderEvaluated =>
    show (Run.evaluate (cx.host e) >>= fun x => Run.render cx.settings x >>= Run.emit) s = _
    rw [Run.bind_apply, Run.evaluate_apply, effect]
    rcases cx.host e s.registry with ⟨f | x, registry⟩
    · rfl
    · exact Run.bind_emit_apply (Run.render_apply cx.settings x _)
  | renderExpanded =>
    show (Run.expand cx.settings e >>= fun x => Run.render cx.settings x >>= Run.emit) s = _
    rw [Run.bind_apply, Run.expand_apply, effect]
    rcases s.registry.expand cx.settings e with f | x
    · rfl
    · exact Run.bind_emit_apply (Run.render_apply cx.settings x s)

/-- A handler reads an expression and performs on it. -/
theorem Handler.directive_apply (h : Handler) (cx : Context) (sigil : String) (s : RunState) :
    h.directive.run cx sigil s =
      match Datum.read (h.casing cx.settings) s.input with
      | (.error f, i) => (.error f, { s with input := i })
      | (.ok e, i) =>
        ((h.effect cx e s.registry s.sink).1,
          ⟨i, (h.effect cx e s.registry s.sink).2.1, (h.effect cx e s.registry s.sink).2.2⟩) := by
  show (Run.read (h.casing cx.settings) >>= h.perform cx) s = _
  rw [Run.bind_apply, Run.read, Run.onInput_apply]
  rcases Datum.read (h.casing cx.settings) s.input with ⟨f | e, i⟩
  · rfl
  · exact h.perform_apply cx e _

/-- A built-in handler stands behind the sigil. -/
def Entry.BuiltIn (e : Entry) : Prop := ∃ h : Handler, e.directive = h.directive

theorem builtIn_of_mem_standardTable {e : Entry} (h : e ∈ standardTable) : e.BuiltIn := by
  obtain ⟨⟨sigil, handler⟩, -, he⟩ := List.mem_filterMap.1 h
  dsimp only at he
  unfold Entry.ofSigil at he
  generalize sigil.toList = cs at he
  cases cs with
  | nil => cases he
  | cons first rest =>
    cases he
    exact ⟨handler, rfl⟩

/-! ## Rounds -/

section Rounds

variable {σ τ α β : Type}

/-- What the rounds `step` come to, if they are over within the given number of them. -/
def runWithin (step : σ → α ⊕ σ) : Nat → σ → Option α
  | 0, _ => none
  | rounds + 1, s =>
    match step s with
    | .inl x => some x
    | .inr t => runWithin step rounds t

theorem processFrom_advance (cx : Context) (table : List Entry) (s : RunState) :
    processFrom cx table s = (advance cx table s).elim id (processFrom cx table) := by
  have : Nonempty (Except Failure Unit × RunState) := ⟨.ok (), s⟩
  rw [processFrom, repeatM_eq_of_monadTail]
  cases h : advance cx table s with
  | inl x => simp [repeatM.body, h]
  | inr t => simp [repeatM.body, h, processFrom]

theorem exists_of_settled {c : Char} {x : Except Failure Bool × RunState} {t : RunState}
    (h : settled c x = .inr t) : ∃ b u, x = (.ok b, u) ∧ t.input = u.input := by
  rcases x with ⟨f | _ | _, u⟩
  · cases h
  · dsimp only [settled] at h
    split at h
    · cases h
    · cases h
      exact ⟨false, u, rfl, rfl⟩
  · cases h
    exact ⟨true, t, rfl, rfl⟩

/-- A document goes on behind a character at which the table was tried. -/
theorem exists_of_advance {cx : Context} {table : List Entry} {s t : RunState}
    (h : advance cx table s = .inr t) :
    ∃ c i b u, s.input.setMark.next = (.ok (some c), i) ∧
      dispatch cx table c { s with input := i } = (.ok b, u) ∧ t.input = u.input := by
  unfold advance at h
  split at h
  · cases h
  · cases h
  · next c i hi =>
    obtain ⟨b, u, hd, hu⟩ := exists_of_settled h
    exact ⟨c, i, b, u, hi, hd, hu⟩

/-- What is over within some rounds is what the run comes to. -/
theorem processFrom_eq_of_within {cx : Context} {table : List Entry} {rounds : Nat} {s : RunState}
    {x : Except Failure Unit × RunState} (h : runWithin (advance cx table) rounds s = some x) :
    processFrom cx table s = x := by
  induction rounds generalizing s with
  | zero => cases h
  | succ rounds ih =>
    rw [runWithin] at h
    rw [processFrom_advance]
    cases ht : advance cx table s with
    | inl y =>
      rw [ht] at h
      exact Option.some.inj h
    | inr t =>
      rw [ht] at h
      exact ih h

end Rounds

namespace Processor

/-- What processing an input comes to, if it is over within the given number of rounds. -/
def processWithin (p : Processor) (rounds : Nat) (input : Input) (sink : Sink) :
    Option (Except Failure Unit × RunState) :=
  runWithin (advance p.context p.table) rounds { input, registry := p.registry, sink }

/-- A document that is over within some rounds shows what it shows then. -/
theorem process_eq_of_within {α : Type} {p : Processor} {input : Input} {sink : Sink}
    (f : Except Failure Unit × RunState → α) (rounds : Nat) {a : α}
    (h : (p.processWithin rounds input sink).map f = some a) : f (p.process input sink) = a := by
  obtain ⟨x, hx, rfl⟩ := Option.map_eq_some_iff.1 h
  rw [process, processFrom_eq_of_within hx]

end Processor

/-! ## Documents -/

/-- The text that a run has written, or its failure, and the macros that it left. -/
def outcome : Except Failure Unit × RunState → Except Failure String × Registry
  | (.ok (), s) => (.ok s.sink.contents, s.registry)
  | (.error f, s) => (.error f, s.registry)

namespace Processor

theorem processText_eq (p : Processor) (text : String) :
    p.processText text =
      ((outcome (p.process (.ofText textName text) (.text ""))).1,
        { p with registry := (outcome (p.process (.ofText textName text) (.text ""))).2 }) := by
  unfold processText
  rcases p.process (.ofText textName text) (.text "") with ⟨f | _, s⟩ <;> rfl

/-- What processing a text comes to, if it is over within the given number of rounds. -/
def textWithin (p : Processor) (rounds : Nat) (text : String) :
    Option (Except Failure String × Processor) :=
  (p.processWithin rounds (.ofText textName text) (.text "")).map fun x =>
    ((outcome x).1, { p with registry := (outcome x).2 })

/-- A text that is over within some rounds comes to what it has come to then. -/
theorem processText_eq_of_within {α : Type} {p : Processor} {text : String}
    (f : Except Failure String × Processor → α) (rounds : Nat) {a : α}
    (h : (p.textWithin rounds text).map f = some a) : f (p.processText text) = a := by
  rw [processText_eq]
  refine process_eq_of_within (fun x => f ((outcome x).1, { p with registry := (outcome x).2 }))
    rounds ?_
  rwa [textWithin, Option.map_map] at h

end Processor

end Sigil
