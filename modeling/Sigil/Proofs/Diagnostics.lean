import Mathlib.Logic.Relation
import Sigil.Proofs.Failing
import Sigil.Proofs.Unlocated

/-!
# Diagnostics point at the offending text

`Processor.processText_points`: a failure that has a source and a span points at the text that is to
blame.  The source is a piece of the document with the whole directive up to where the run ended,
and the span selects the culprit in it.

1. An excerpt cuts a text up around a culprit (`Excerpt`).  What has been pulled of a directive lies
   in the window, so a fault there has an excerpt (`Input.At.exists_excerpt`).
2. Each way in which a table fails blames a part of the directive (`Blamed`, `Failing.explained`);
   only handlers are left out, and what they report with a source is a macro's own (`Reported`).
3. The rounds before it keep the input at a cursor, the sink a text and the failures of macros
   without a place (`Sound.proceeds`), so the round that fails explains its failure
   (`Sound.explained`).

A macro of an embedding program is free to report a place in a text of its own, and its report is
handed on as it is (`Processor.processText_reports_elsewhere`).
-/

namespace Sigil

open Input (byteLength)
open Datum (Culprit ReadAccuses)

/-! ## Excerpts -/

theorem isValid_byteLength (a b : List Char) :
    String.Pos.Raw.IsValid (String.ofList (a ++ b)) ⟨byteLength a⟩ := by
  refine String.Pos.Raw.isValid_iff_exists_append.2 ⟨.ofList a, .ofList b, String.ofList_append, ?_⟩
  exact congrArg String.Pos.Raw.mk (Input.size_toUTF8_ofList a).symm

/-- A text, cut up around a culprit.  A diagnostic shows the piece between `dropped` and `rest`. -/
structure Excerpt (text : List Char) where
  dropped : List Char
  /-- What is shown before the directive. -/
  kept : List Char
  /-- The directive up to the culprit. -/
  front : List Char
  blamed : List Char
  /-- What is shown behind the culprit. -/
  shown : List Char
  rest : List Char
  text_eq : dropped ++ (kept ++ (front ++ (blamed ++ (shown ++ rest)))) = text

namespace Excerpt

variable {text : List Char} (x : Excerpt text)

/-- The text from the start of the directive on. -/
def directive : List Char := x.front ++ (x.blamed ++ (x.shown ++ x.rest))

/-- The text behind the culprit. -/
def after : List Char := x.shown ++ x.rest

/-- The piece that is shown. -/
def source : String := String.ofList (x.kept ++ (x.front ++ (x.blamed ++ x.shown)))

/-- The place of the culprit in the piece that is shown. -/
def span : Span := ⟨byteLength (x.kept ++ x.front), byteLength (x.kept ++ (x.front ++ x.blamed))⟩

/-- The span lies in the piece that is shown, between characters of it. -/
theorem span_bounds : x.span.start ≤ x.span.stop ∧ x.span.stop ≤ x.source.utf8ByteSize ∧
    String.Pos.Raw.IsValid x.source ⟨x.span.start⟩ ∧
    String.Pos.Raw.IsValid x.source ⟨x.span.stop⟩ := by
  have hsize : x.source.utf8ByteSize = byteLength (x.kept ++ (x.front ++ (x.blamed ++ x.shown))) :=
    Input.size_toUTF8_ofList _
  have hstart := isValid_byteLength (x.kept ++ x.front) (x.blamed ++ x.shown)
  have hstop := isValid_byteLength (x.kept ++ (x.front ++ x.blamed)) x.shown
  rw [hsize]
  simp only [List.append_assoc] at hstart hstop
  refine ⟨?_, ?_, hstart, hstop⟩ <;> simp only [span, Input.byteLength_append] <;> omega

end Excerpt

/-- A part of the text from the mark on that has been pulled lies in the window. -/
theorem Input.At.exists_excerpt {k : Input} {P read rest front blamed after : List Char}
    (hk : k.At ⟨P, read, rest⟩) (hparts : read ++ rest = front ++ (blamed ++ after))
    (hpulled : front ++ blamed <+: read ++ k.ready) :
    ∃ x : Excerpt (P ++ (read ++ rest)), x.front = front ∧ x.blamed = blamed ∧ x.after = after ∧
      x.rest <:+ rest ∧ k.source.text = x.source ∧
      k.span (byteLength (P ++ front)) (byteLength (P ++ (front ++ blamed))) = x.span := by
  obtain ⟨dropped, kept, hp, hd, hw⟩ := hk.window
  obtain ⟨shown, hshown⟩ := hpulled
  dsimp only at hp hw
  rw [List.append_assoc] at hshown
  have hrest : rest = k.ready ++ k.lines.flatMap Text.Line.chars := hk.remaining.symm
  have hafter : shown ++ k.lines.flatMap Text.Line.chars = after := by
    refine @List.append_cancel_left _ (front ++ blamed) _ _ ?_
    calc front ++ blamed ++ (shown ++ k.lines.flatMap Text.Line.chars)
        = front ++ (blamed ++ shown) ++ k.lines.flatMap Text.Line.chars := by
          simp only [List.append_assoc]
      _ = front ++ blamed ++ after := by
          rw [hshown, List.append_assoc, ← hrest, hparts, List.append_assoc]
  refine ⟨⟨dropped, kept, front, blamed, shown, k.lines.flatMap Text.Line.chars, ?_⟩, rfl, rfl,
    hafter, ⟨k.ready, hrest.symm⟩, ?_, ?_⟩
  · rw [hafter, hparts, hp, List.append_assoc]
  · simp only [Input.source, Excerpt.source, hw, hshown, List.append_assoc]
  · simp only [Input.span, Excerpt.span, hp, ← hd, Input.byteLength_append, Span.mk.injEq]
    omega

/-! ## Culprits of a table -/

/-- A sigil of the table and a gap stand before the expression that starts the text `expr`. -/
def Directs (table : List Entry) (lead expr : List Char) : Prop :=
  ∃ e gap, table.find? (·.Stands (lead ++ expr)) = some e ∧ lead = e.sigil.toList ++ gap ∧
    Datum.Plain.skip (gap ++ expr) = expr

/-- What a fault of a directive blames: its text is `front`, then `blamed`, then `after`. -/
inductive Blamed (table : List Entry) (front blamed after : List Char) : Fault → Prop
  /-- The end of the text, where no expression was found. -/
  | missing (hlead : Directs table front []) (hblamed : blamed = []) (hend : after = []) :
    Blamed table front blamed after .missingExpression
  /-- A part of the expression. -/
  | inside {lead v : List Char} {fault : Fault} (hfront : front = lead ++ v)
    (hlead : Directs table lead (v ++ (blamed ++ after)))
    (hculprit : Culprit v blamed after fault) : Blamed table front blamed after fault
  /-- All of the text, which is the start of a sigil. -/
  | cut {e : Entry} (hfront : front = []) (hend : after = [])
    (hnone : table.find? (·.Stands blamed) = none) (hcut : table.find? (·.IsCut blamed) = some e) :
    Blamed table front blamed after (.sigilCutShort e.sigil)

/-- The failure `f`, raised at `k`, shows the excerpt and points at its culprit. -/
structure Excerpt.Explains {text : List Char} (x : Excerpt text) (table : List Entry) (f : Failure)
    (k : Input) : Prop where
  source : f.source.map Source.text = some x.source
  span : f.span = some x.span
  /-- All that was read of the directive is shown. -/
  reached : k.remaining <:+ x.directive ∧ x.rest <:+ k.remaining
  blamed : Blamed table x.front x.blamed x.after f.fault

/-- The failure `f` of a directive behind the text `P`, raised at `k`, can be explained. -/
def Explained (table : List Entry) (P directive : List Char) (f : Failure) (k : Input) : Prop :=
  ∃ x : Excerpt (P ++ directive), x.directive = directive ∧ x.Explains table f k

/-- A fault whose culprit has been pulled. -/
theorem Input.At.explained {table : List Entry} {k : Input}
    {P read rest front blamed after : List Char} {fault : Fault} (hk : k.At ⟨P, read, rest⟩)
    (hparts : read ++ rest = front ++ (blamed ++ after))
    (hpulled : front ++ blamed <+: read ++ k.ready)
    (hblamed : Blamed table front blamed after fault) :
    Explained table P (read ++ rest) (.located fault k.source
      (k.span (byteLength (P ++ front)) (byteLength (P ++ (front ++ blamed))))) k := by
  obtain ⟨x, rfl, rfl, rfl, hrest, hsource, hspan⟩ := hk.exists_excerpt hparts hpulled
  have hdirective : x.directive = read ++ rest := hparts.symm
  have hremaining : k.remaining = rest := hk.remaining
  refine ⟨x, hdirective, congrArg some hsource, congrArg some hspan, ?_, hblamed⟩
  rw [hremaining, hdirective]
  exact ⟨List.suffix_append read rest, hrest⟩

/-- A fault whose culprit ends at the cursor. -/
theorem Input.At.explained_failure {table : List Entry} {k : Input}
    {P rest front blamed : List Char} {fault : Fault} (hk : k.At ⟨P, front ++ blamed, rest⟩)
    (hblamed : Blamed table front blamed rest fault) :
    Explained table P (front ++ (blamed ++ rest)) (k.failure fault (byteLength (P ++ front)))
      k := by
  have h := hk.explained (List.append_assoc ..) (List.prefix_append ..) hblamed
  have hoffset : k.offset = byteLength (P ++ (front ++ blamed)) := hk.offset
  rwa [List.append_assoc, ← hoffset] at h

/-- A failure to read an expression behind a sigil. -/
theorem Datum.ReadAccuses.explained {table : List Entry} {e : Entry} {P r : List Char}
    {f : Failure} {k : Input} (hfind : table.find? (·.Stands (e.sigil.toList ++ r)) = some e)
    (h : ReadAccuses P e.sigil.toList r f k) :
    Explained table P (e.sigil.toList ++ r) f k := by
  cases h with
  | missing hr hk hf =>
    have hlead : Directs table (e.sigil.toList ++ r) [] :=
      ⟨e, r, by rwa [List.append_nil], rfl, by rwa [List.append_nil]⟩
    have hend : k.At ⟨P, e.sigil.toList ++ r ++ [], []⟩ := by rwa [List.append_nil]
    have hx := hend.explained_failure (.missing hlead rfl rfl)
    rw [List.append_nil, List.append_nil] at hx
    rwa [hf]
  | @inside g expr rest hr hskip ha =>
    obtain ⟨hk, v, blamed, fault, rfl, rfl, hculprit⟩ := ha
    have htext : e.sigil.toList ++ r = e.sigil.toList ++ g ++ v ++ (blamed ++ rest) := by
      rw [hr]
      simp only [List.append_assoc]
    have hlead : Directs table (e.sigil.toList ++ g) (v ++ (blamed ++ rest)) := by
      refine ⟨e, g, ?_, rfl, ?_⟩
      · rwa [htext, List.append_assoc (e.sigil.toList ++ g)] at hfind
      · rwa [hr, List.append_assoc] at hskip
    rw [← List.append_assoc] at hk
    rw [htext]
    exact hk.explained_failure (.inside rfl hlead hculprit)

/-- A failure of a directive behind `P` can be explained, unless its handler has failed on the
expression that was read. -/
theorem Failing.explained {cx : Context} {table : List Entry} {P : List Char} {c : Char}
    {r : List Char} {registry : Registry} {sink : Sink} {f : Failure} {k : Input}
    (h : Failing cx none table P c r registry sink f k) :
    (∃ (h : Handler) (x : Expr), Performs cx table (c :: r) h x ∧
      (h.effect cx x registry sink).1 = .error f) ∨ Explained table P (c :: r) f k := by
  cases h with
  | @cutShort sigil hnone hsigil hk hlines hf =>
    obtain ⟨e, hcut, rfl⟩ := Option.map_eq_some_iff.1 hsigil
    -- all lines are pulled, so the rest of the text is ready
    have hready : k.ready = r := by
      have hr : k.remaining = r := hk.remaining
      rwa [Input.remaining, hlines, List.flatMap_nil, List.append_nil] at hr
    have hpulled : [] ++ (c :: r) <+: [c] ++ k.ready := by rw [hready]; exact List.prefix_rfl
    have hparts : [c] ++ r = [] ++ ((c :: r) ++ []) := (List.append_nil (c :: r)).symm
    have hx := hk.explained hparts hpulled (.cut rfl rfl hnone hcut)
    rw [List.append_nil] at hx
    exact .inr (hf ▸ hx)
  | reading hfind hr ha =>
    rw [hr] at hfind ⊢
    exact .inr (ha.explained hfind)
  | performing hx hf => exact .inl ⟨_, _, hx, hf⟩

/-! ## Rounds -/

/-- The document goes on from one round to the next. -/
def Proceeds (cx : Context) (table : List Entry) (s t : RunState) : Prop :=
  advance cx table s = .inr t

/-- What holds before each round of a document that is processed into a text. -/
structure Sound (settings : Settings) (registry : Registry) (text : List Char) (s : RunState) :
    Prop where
  at_cursor : ∃ k, s.input.At k ∧ k.before ++ k.ahead = text
  isText : s.sink.IsText
  unlocated : (Evaluation.unlocated settings registry).Holds s.registry

/-- The character at which a round tries the table. -/
theorem Input.At.next_mark {i j : Input} {k : Cursor} {c : Char} (h : i.At k)
    (hj : i.setMark.next = (.ok (some c), j)) :
    ∃ r, k.ahead = c :: r ∧ j.At ⟨k.before, [c], r⟩ := by
  obtain ⟨hc, hat⟩ := h.setMark.next
  rw [hj] at hc hat
  have hk : k.ahead = c :: k.ahead.tail := List.eq_cons_of_mem_head? (Except.ok.inj hc).symm
  refine ⟨k.ahead.tail, hk, ?_⟩
  rwa [Cursor.after, Cursor.forward, hk] at hat

theorem Sink.emitted_registry (sink : Sink) (registry : Registry) (x : Except Failure String) :
    (sink.emitted registry x).2.1 = registry := by
  cases x <;> rfl

theorem Sink.IsText.of_emitted_error {sink : Sink} (h : sink.IsText) {registry : Registry}
    {x : Except Failure String} {f : Failure} (hf : (sink.emitted registry x).1 = .error f) :
    x = .error f := by
  obtain ⟨written, rfl⟩ := h
  cases x with
  | error f' =>
    cases hf
    rfl
  | ok t => cases hf

theorem registry_settled (c : Char) (x : Except Failure Bool × RunState) :
    ((settled c x).elim Prod.snd id).registry = x.2.registry := by
  rcases x with ⟨f | _ | _, t⟩
  · rfl
  · dsimp only [settled]
    rcases t.sink.emitChar c with ⟨f | _, sink⟩ <;> rfl
  · rfl

/-- A text takes every character, so only the table can fail. -/
theorem eq_error_of_settled {c : Char} {x : Except Failure Bool × RunState} {f : Failure}
    {t : RunState} (hx : x.2.sink.IsText) (h : settled c x = .inl (.error f, t)) :
    x = (.error f, t) := by
  rcases x with ⟨f' | _ | _, u⟩
  · cases h
    rfl
  · obtain ⟨written, hw⟩ : ∃ written, u.sink = .text written := hx
    simp only [settled, hw, Sink.emitChar, Sink.emit] at h
    cases h
  · cases h

/-- A handler fails with a source only as a macro of the registry does. -/
theorem Handler.reports_of_effect (h : Handler) {settings : Settings} {e : Expr} {r : Registry}
    {sink : Sink} {f : Failure} (hs : sink.IsText)
    (hf : (h.effect ⟨settings, .definitions settings⟩ e r sink).1 = .error f)
    (hsource : f.source ≠ none) : r.Reports f := by
  have hsettles := (h.unlocated_yield settings (Evaluation.holds_unlocated settings r) e).2
  rw [h.effect_eq_emitted] at hf
  rw [hs.of_emitted_error hf] at hsettles
  exact hsettles.resolve_left hsource

/-- In the round from `s` the expression of a directive is read, and the handler fails on it with
`f`.  With other macros in the registry it fails with `f` only if one of those returns `f`, so the
failure is what a macro has returned that was called in this round. -/
def Reported (cx : Context) (table : List Entry) (s : RunState) (f : Failure) : Prop :=
  ∃ h e, Performs cx table s.input.remaining h e ∧
    (h.effect cx e s.registry s.sink).1 = .error f ∧
    ∀ r : Registry, (h.effect cx e r s.sink).1 = .error f → r.Reports f

section

variable {settings : Settings} {table : List Entry} {registry : Registry} {s t : RunState}
  {text : List Char} {f : Failure}

theorem Tried.unlocated {x : Except Failure Bool × RunState}
    (h : Tried ⟨settings, .definitions settings⟩ s x)
    (hs : (Evaluation.unlocated settings registry).Holds s.registry) :
    (Evaluation.unlocated settings registry).Holds x.2.registry := by
  cases h with
  | passed hi => exact hs
  | failed f hi => exact hs
  | performed h e hi =>
    dsimp only
    rw [h.effect_eq_emitted, Sink.emitted_registry]
    exact (h.unlocated_yield settings hs e).1

theorem unlocated_advance (hb : ∀ e ∈ table, e.BuiltIn)
    (hs : (Evaluation.unlocated settings registry).Holds s.registry) :
    (Evaluation.unlocated settings registry).Holds
      ((advance ⟨settings, .definitions settings⟩ table s).elim Prod.snd id).registry := by
  unfold advance
  rcases s.input.setMark.next with ⟨f | _ | c, i⟩
  · exact hs
  · exact hs
  · dsimp only
    rw [registry_settled]
    exact (tried_dispatch _ hb c { s with input := i }).unlocated hs

/-- **One round** that goes on. -/
theorem Sound.proceeds (hb : ∀ e ∈ table, e.BuiltIn) (hs : Sound settings registry text s)
    (h : Proceeds ⟨settings, .definitions settings⟩ table s t) :
    Sound settings registry text t := by
  unfold Proceeds at h
  have hsink := @isText_advance ⟨settings, .definitions settings⟩ table hb s hs.isText
  have hregistry := unlocated_advance hb hs.unlocated
  rw [h] at hsink hregistry
  refine ⟨?_, hsink, hregistry⟩
  obtain ⟨k, hk, htext⟩ := hs.at_cursor
  obtain ⟨c, i, b, u, hi, hd, hu⟩ := exists_of_advance h
  obtain ⟨r, hr, hat⟩ := hk.next_mark hi
  obtain ⟨cs, hreach⟩ := (tried_dispatch _ hb c { s with input := i }).reaches
  rw [hd] at hreach
  obtain ⟨rest, hrest, hat'⟩ := hreach.at_cursor hat
  dsimp only at hrest
  rw [hu]
  refine ⟨_, hat', ?_⟩
  rw [← htext, hr, hrest]
  simp [Cursor.before]

/-- **The last round**, if it fails with a source. -/
theorem Sound.explained (hb : ∀ e ∈ table, e.BuiltIn) (hs : Sound settings registry text s)
    (h : advance ⟨settings, .definitions settings⟩ table s = .inl (.error f, t))
    (hsource : f.source ≠ none) :
    (Reported ⟨settings, .definitions settings⟩ table s f ∧ registry.Reports f) ∨
      ∃ x : Excerpt text, s.input.remaining = x.directive ∧ x.Explains table f t.input := by
  obtain ⟨k, hk, rfl⟩ := hs.at_cursor
  unfold advance at h
  rcases hi : s.input.setMark.next with ⟨f' | _ | c, i⟩ <;> rw [hi] at h
  · have hok := hk.setMark.next.1
    rw [hi] at hok
    cases hok
  · rw [hs.isText.flush] at h
    cases h
  · obtain ⟨r, hr, hat⟩ := hk.next_mark hi
    have hremaining : s.input.remaining = c :: r := hk.remaining.trans hr
    have hsink := (tried_dispatch ⟨settings, .definitions settings⟩ hb c
      { s with input := i }).isText hs.isText
    rcases (failing_dispatch hb hat (eq_error_of_settled hsink h)).explained with
      ⟨d, e, hperforms, he⟩ | hx
    · have hreports : ∀ r : Registry,
          (d.effect ⟨settings, .definitions settings⟩ e r s.sink).1 = .error f → r.Reports f :=
        fun _ hr => d.reports_of_effect hs.isText hr hsource
      refine .inl ⟨⟨d, e, hremaining ▸ hperforms, he, hreports⟩, ?_⟩
      -- the macros of later rounds report no more than those of the first one
      obtain ⟨name, m, args, hm, hf⟩ := hreports s.registry he
      exact (hs.unlocated.macros name m hm args f hf).resolve_left hsource
    · obtain ⟨x, hdirective, hexplains⟩ := hr ▸ hx
      exact .inr ⟨x, hk.remaining.trans hdirective.symm, hexplains⟩

/-- **Rounds.** A run that fails comes to a round that fails. -/
theorem exists_of_processFrom {cx : Context} (hb : ∀ e ∈ table, e.BuiltIn)
    (h : processFrom cx table s = (.error f, t)) :
    ∃ u, Relation.ReflTransGen (Proceeds cx table) s u ∧
      advance cx table u = .inl (.error f, t) := by
  induction s using advance_induct cx hb with
  | round s ih =>
    rw [processFrom_advance] at h
    cases ha : advance cx table s with
    | inl x =>
      rw [ha] at h
      exact ⟨s, .refl, by rw [ha, ← h]; rfl⟩
    | inr s' =>
      rw [ha] at h
      obtain ⟨u, hu, hf⟩ := ih s' ha h
      exact ⟨u, .head ha hu, hf⟩

theorem Sound.of_reflTransGen (hb : ∀ e ∈ table, e.BuiltIn) (hs : Sound settings registry text s)
    (h : Relation.ReflTransGen (Proceeds ⟨settings, .definitions settings⟩ table) s t) :
    Sound settings registry text t := by
  induction h with
  | refl => exact hs
  | tail _ hstep ih => exact ih.proceeds hb hstep

end

theorem sound_start (settings : Settings) (registry : Registry) (text : String) :
    Sound settings registry text.toList ⟨.ofText Processor.textName text, registry, .text ""⟩ where
  at_cursor := ⟨_, Input.at_start _ text, rfl⟩
  isText := ⟨"", rfl⟩
  unlocated := Evaluation.holds_unlocated settings registry

/-! ## Documents -/

namespace Processor

/-- **Diagnostics point at the offending text.**  A document that fails with a source and a span has
come, round by round, to a directive that fails.  Unless the expression of that directive was read
and its handler hands on the report of a macro, the source is a piece of the document with all that
was read of the directive, and the span selects the culprit in it. -/
theorem processText_points (settings : Settings) {table : List Entry}
    (hb : ∀ e ∈ table, e.BuiltIn) (registry : Registry) (text : String) {f : Failure}
    {source : Source} {span : Span}
    (h : ({ make settings table with registry }.processText text).1 = .error f)
    (hsource : f.source = some source) (hspan : f.span = some span) :
    ∃ s t : RunState,
      Relation.ReflTransGen (Proceeds (make settings table).context table)
        ⟨.ofText textName text, registry, .text ""⟩ s ∧
      advance (make settings table).context table s = .inl (.error f, t) ∧
      ((Reported (make settings table).context table s f ∧ registry.Reports f) ∨
      ∃ x : Excerpt text.toList,
        s.input.remaining = x.directive ∧
        (t.input.remaining <:+ x.directive ∧ x.rest <:+ t.input.remaining) ∧
        source.text = x.source ∧
        span = x.span ∧
        (span.start ≤ span.stop ∧ span.stop ≤ source.text.utf8ByteSize) ∧
        (String.Pos.Raw.IsValid source.text ⟨span.start⟩ ∧
          String.Pos.Raw.IsValid source.text ⟨span.stop⟩) ∧
        Blamed table x.front x.blamed x.after f.fault) := by
  rw [processText_eq] at h
  rcases hp : { make settings table with registry }.process (.ofText textName text) (.text "") with
    ⟨f' | _, t⟩ <;> rw [hp] at h <;> cases h
  obtain ⟨s, hs, ha⟩ := exists_of_processFrom hb hp
  have hsound := (sound_start settings registry text).of_reflTransGen hb hs
  refine ⟨s, t, hs, ha, ?_⟩
  rcases hsound.explained hb ha (by simp [hsource]) with hreported | ⟨x, hx, hexplains⟩
  · exact .inl hreported
  · have htext : source.text = x.source := by
      have hshown := hexplains.source
      rw [hsource] at hshown
      exact Option.some.inj hshown
    obtain rfl : span = x.span := Option.some.inj (hspan.symm.trans hexplains.span)
    obtain ⟨hle, hle', hstart, hstop⟩ := x.span_bounds
    rw [htext]
    exact .inr ⟨x, hx, hexplains.reached, rfl, rfl, ⟨hle, hle'⟩, ⟨hstart, hstop⟩, hexplains.blamed⟩

/-- The inner list is open at the end; the parenthesis in the comment does not count. -/
theorem processText_points_unbalanced :
    let text := "ü #c:(é ; )\n (x y"
    let f := Failure.located .unbalancedList ⟨textName, "#c:(é ; )\n (x y"⟩ ⟨12, 16⟩
    (standard.processText text).1 = .error f ∧
      ∃ x : Excerpt text.toList, x.source = "#c:(é ; )\n (x y" ∧ x.span = ⟨12, 16⟩ ∧
        Blamed standardTable x.front x.blamed x.after .unbalancedList := by
  intro text f
  have hf : (standard.processText text).1 = .error f :=
    processText_eq_of_within Prod.fst 3 (by decide +kernel)
  have hb : ∀ e ∈ standardTable, e.BuiltIn := fun _ => builtIn_of_mem_standardTable
  obtain ⟨s, t, -, -, hreported | ⟨x, -, -, hsource, hspan, -, -, hblamed⟩⟩ :=
    processText_points {} hb .empty text hf rfl rfl
  · obtain ⟨-, name, m, args, hm, -⟩ := hreported
    cases hm
  · exact ⟨hf, x, hsource.symm, hspan.symm, hblamed⟩

/-- A macro that reads a text of its own reports where that text is at fault, and the report is
handed on: its source is no piece of the document. -/
theorem processText_reports_elsewhere :
    let load : Macro := { transform := fun _ => (Datum.read .keep (.ofText "library" "(x")).1 }
    let text := "#:(load)"
    let source : Source := ⟨"library", "(x"⟩
    ({ standard with registry := Registry.empty.defineMacro "load" load }.processText text).1 =
        .error (.located .unbalancedList source ⟨0, 2⟩) ∧
      ¬ source.text.toList <:+: text.toList := by
  intro load text source
  refine ⟨?_, by decide⟩
  exact processText_eq_of_within Prod.fst 2 (by decide +kernel)

end Processor

end Sigil
