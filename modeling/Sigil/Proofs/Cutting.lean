import Sigil.Proofs.Placing

/-!
# Cutting a document at a line end

`Processor.processText_append`: a document can be cut behind any of its lines.  If the first part
goes through, the whole document comes to what the second part comes to with the macros that the
first one left, with the output of the first part in front.

1. A document is processed in rounds (`advance`), and a round does not see that it works on a part
   of a longer document, unless it comes to the end of that part (`advance_placed`).
2. The rounds of the first part never look behind its last line, so the whole document gets to the
   end of the first part as that part alone does (`exists_last`).
3. There all that was pulled has been read, so the next line that is pulled replaces the window, and
   the input is the second part, placed behind the first one (`outcome_resumed`).
4. From there on only the offsets and the text already written differ (`processFrom_placed`).
-/

namespace Sigil

open Text (Line)

/-! ## Lines -/

/-- Behind the end of a line the lines of a list are those of what is before and of what follows. -/
theorem Text.breakLines_append_of_getLast? {α : Type} {endsLine : α → Bool} {l : List α}
    (h : ∀ a, l.getLast? = some a → endsLine a = true) (r : List α) :
    breakLines endsLine (l ++ r) = breakLines endsLine l ++ breakLines endsLine r := by
  induction l with
  | nil => rfl
  | cons a l ih =>
    have hl : ∀ b, l.getLast? = some b → endsLine b = true := by
      intro b hb
      refine h b ?_
      rw [List.getLast?_cons, hb]
      rfl
    rw [List.cons_append, breakLines, breakLines, ih hl]
    split_ifs with ha
    · rfl
    · cases l with
      | nil => exact absurd (h a rfl) ha
      | cons b l =>
        have hne : breakLines endsLine (b :: l) ≠ [] := by
          intro hn
          have hf := flatten_breakLines endsLine (b :: l)
          rw [hn] at hf
          cases hf
        obtain ⟨line, lines, hlines⟩ := List.exists_cons_of_ne_nil hne
        rw [hlines]
        rfl

/-- The text is made of whole lines: it is empty or ends in a line feed. -/
def Text.IsLines (text : String) : Prop := text = "" ∨ EndsLine text.toList

instance (text : String) : Decidable (Text.IsLines text) := inferInstanceAs (Decidable (_ ∨ _))

/-- Whole lines that are not yet read: there are none, or the end of a line is ahead. -/
theorem Text.IsLines.lineAhead {text : String} (h : Text.IsLines text) (name : String) :
    (Input.ofText name text).remaining = [] ∨ (Input.ofText name text).LineAhead := by
  have hr : (Input.ofText name text).remaining = text.toList := Input.remaining_ofText name text
  rcases h with rfl | h
  · exact .inl hr
  · exact .inr ⟨Input.legible_ofText name text, hr ▸ h⟩

theorem Input.ofText_append {front : String} (h : Text.IsLines front) (name text : String) :
    ofText name (front ++ text) = (ofText name front).placed 0 (Text.linesOfText text) := by
  have hl : ∀ c, front.toList.getLast? = some c → (c == '\n') = true := by
    intro c hc
    rcases h with rfl | h
    · cases hc
    · rw [show front.toList.getLast? = _ from h] at hc
      cases hc
      rfl
  simp only [ofText, placed, Text.linesOfText, String.toList_append,
    Text.breakLines_append_of_getLast? hl, List.map_append]

/-! ## Rounds -/

theorem settled_ne_ok {c : Char} {x : Except Failure Bool × RunState} {t : RunState} :
    settled c x ≠ .inl (.ok (), t) := by
  intro h
  rcases x with ⟨f | _ | _, u⟩
  · cases h
  · dsimp only [settled] at h
    split at h <;> cases h
  · cases h

theorem settled_placed (d : Nat) (more : List Line) (front : String) (c : Char)
    (x : Except Failure Bool × RunState) :
    settled c (Prod.map id (RunState.placed d more front) x) =
      (settled c x).map (Prod.map id (RunState.placed d more front))
        (RunState.placed d more front) := by
  rcases x with ⟨f | _ | _, t⟩
  · rfl
  · have he : (t.placed d more front).sink.emitChar c = _ := Sink.emit_behind front t.sink _
    dsimp only [Prod.map, id, settled]
    rw [he, ← Sink.emitChar]
    rcases t.sink.emitChar c with ⟨f | _, sink⟩ <;> rfl
  · rfl

section Rounds

variable {cx : Context} {table : List Entry} {s t : RunState}

/-- A document goes through only at its end. -/
theorem next_of_advance (h : advance cx table s = .inl (.ok (), t)) :
    s.input.setMark.next.1 = .ok none := by
  unfold advance at h
  split at h
  · cases h
  · next i hi => rw [hi]
  · exact absurd h settled_ne_ok

/-- A round in which the document is over has failed, if a line is ahead. -/
theorem exists_error_of_advance (hs : s.input.LineAhead) {x : Except Failure Unit × RunState}
    (h : advance cx table s = .inl x) : ∃ f, x.1 = .error f := by
  obtain ⟨f | _, t⟩ := x
  · exact ⟨f, rfl⟩
  · obtain ⟨c, i, hi, -⟩ := hs.setMark.exists_next
    have hend := next_of_advance h
    rw [hi] at hend
    cases hend

/-- **One round** of a part whose last line is still to be read leaves a line to be read, or
nothing. -/
theorem Input.LineAhead.advance (hb : ∀ e ∈ table, e.BuiltIn) (hn : ∀ e ∈ table, e.InLine)
    (hs : s.input.LineAhead) (h : advance cx table s = .inr t) :
    t.input.remaining = [] ∨ t.input.LineAhead := by
  obtain ⟨c, i, b, u, hi, hd, hu⟩ := exists_of_advance h
  obtain ⟨hr, hl⟩ := (hi ▸ Input.reads_next hs.setMark.legible).of_some
  rw [hu]
  by_cases hc : c = '\n'
  · rw [hc, dispatch_lineFeed hn] at hd
    cases hd
    by_cases hne : i.remaining = []
    · exact .inl hne
    · refine .inr ⟨hl, hs.endsLine.of_suffix ?_ hne⟩
      exact hr ▸ List.suffix_cons c i.remaining
  · have hi' : ({ s with input := i } : RunState).input.LineAhead := hs.setMark.next hi hc
    exact .inr (hi'.dispatch hb hn hd)

/-- **One round** keeps the input at a cursor. -/
theorem Input.At.advance (hb : ∀ e ∈ table, e.BuiltIn) {k : Cursor} (hs : s.input.At k)
    (h : advance cx table s = .inr t) :
    (∃ k, t.input.At k) ∧ t.input.name = s.input.name := by
  obtain ⟨c, i, b, u, hi, hd, hu⟩ := exists_of_advance h
  obtain ⟨cs, hreach⟩ := (tried_dispatch cx hb c { s with input := i }).reaches
  rw [hd] at hreach
  have hat := hs.setMark.next.2
  have hname := Input.name_next s.input.setMark
  rw [hi] at hat hname
  obtain ⟨rest, -, hat'⟩ := hreach.at_cursor hat
  rw [hu]
  exact ⟨⟨_, hat'⟩, hreach.name.trans hname⟩

/-- Trying the table in a round that goes on, or in a part behind which nothing is added. -/
theorem dispatch_placed_of_next (d : Nat) (front : String) {more : List Line} {c : Char} {i : Input}
    (hb : ∀ e ∈ table, e.BuiltIn) (hn : ∀ e ∈ table, e.InLine) (h : s.input.Covered more)
    (hgo : more = [] ∨ ∃ t, advance cx table s = .inr t)
    (hi : s.input.setMark.next = (.ok (some c), i)) :
    dispatch cx table c (RunState.placed d more front { s with input := i }) =
      Prod.map id (RunState.placed d more front) (dispatch cx table c { s with input := i }) := by
  by_cases hc : c = '\n'
  · rw [hc, dispatch_lineFeed hn, dispatch_lineFeed hn]
    rfl
  · have hcov : i.Covered more := h.setMark.next hi hc
    refine dispatch_placed d front hb hn hcov (Input.utf8Size_le_of_next hi) ?_
    rcases hgo with hm | ⟨t, ht⟩
    · exact .inl hm
    · obtain ⟨c', i', b, u, hi', hd, -⟩ := exists_of_advance ht
      cases hi.symm.trans hi'
      rw [hd]
      exact hcov.imp_right fun hl => (Input.LineAhead.dispatch hb hn hl hd).size_pos

/-- **One round** of a part, in the longer document. -/
theorem advance_placed (d : Nat) (front : String) {more : List Line}
    (hb : ∀ e ∈ table, e.BuiltIn) (hn : ∀ e ∈ table, e.InLine) (h : s.input.Covered more)
    (hgo : more = [] ∨ ∃ t, advance cx table s = .inr t) :
    advance cx table (s.placed d more front) =
      (advance cx table s).map (Prod.map id (RunState.placed d more front))
        (RunState.placed d more front) := by
  have hnext : (s.placed d more front).input.setMark.next = _ :=
    Input.next_placed h.setMark.room
  rcases hi : s.input.setMark.next with ⟨f | _ | c, i⟩
  · rw [advance, advance, hnext, hi]
    rfl
  · rw [advance, advance, hnext, hi]
    exact congrArg (fun f => Sum.inl (f, RunState.placed d more front { s with input := i }))
      (Sink.flush_behind front s.sink)
  · have hd := dispatch_placed_of_next d front hb hn h hgo hi
    rw [advance, advance, hnext, hi]
    exact (congrArg (settled c) hd).trans (settled_placed d more front c _)

/-- **Rounds** of a part behind which nothing is added. -/
theorem processFrom_placed (d : Nat) (front : String) (hb : ∀ e ∈ table, e.BuiltIn)
    (hn : ∀ e ∈ table, e.InLine) (s : RunState) :
    processFrom cx table (s.placed d [] front) =
      Prod.map id (RunState.placed d [] front) (processFrom cx table s) := by
  induction s using advance_induct cx hb with
  | round s ih =>
    rw [processFrom_advance, processFrom_advance cx table s,
      advance_placed d front hb hn (.inl rfl) (.inl rfl)]
    cases ha : advance cx table s with
    | inl x => rfl
    | inr t => exact ih t ha

end Rounds

/-! ## Texts -/

namespace Sink

/-- The sink keeps text. -/
def IsText (s : Sink) : Prop := ∃ written, s = .text written

theorem IsText.emit {s : Sink} (h : s.IsText) (t : String) : (s.emit t).2.IsText := by
  obtain ⟨written, rfl⟩ := h
  exact ⟨written ++ t, rfl⟩

theorem IsText.emitted {s : Sink} (h : s.IsText) (registry : Registry)
    (x : Except Failure String) : (s.emitted registry x).2.2.IsText := by
  cases x with
  | error f => exact h
  | ok t => exact h.emit t

theorem IsText.contents_behind {s : Sink} (h : s.IsText) (front : String) :
    (s.behind front).contents = front ++ s.contents := by
  obtain ⟨written, rfl⟩ := h
  rfl

theorem IsText.flush {s : Sink} (h : s.IsText) : s.flush = .ok () := by
  obtain ⟨written, rfl⟩ := h
  rfl

end Sink

theorem Handler.isText_effect (h : Handler) (cx : Context) (e : Expr) (registry : Registry)
    {s : Sink} (hs : s.IsText) : (h.effect cx e registry s).2.2.IsText := by
  cases h with
  | printExpanded => exact hs.emitted ..
  | evaluateSilently => exact hs
  | renderEvaluated =>
    simp only [effect]
    rcases cx.host e registry with ⟨f | value, registry'⟩
    · exact hs
    · exact hs.emitted ..
  | renderExpanded => exact hs.emitted ..

theorem Tried.isText {cx : Context} {s : RunState} {x : Except Failure Bool × RunState}
    (h : Tried cx s x) (hs : s.sink.IsText) : x.2.sink.IsText := by
  cases h with
  | passed hi => exact hs
  | failed f hi => exact hs
  | performed h e hi => exact h.isText_effect cx e s.registry hs

theorem isText_settled {c : Char} {x : Except Failure Bool × RunState} (h : x.2.sink.IsText) :
    ((settled c x).elim Prod.snd id).sink.IsText := by
  rcases x with ⟨f | _ | _, t⟩
  · exact h
  · have he := Sink.IsText.emit h (String.singleton c)
    dsimp only [settled, Sink.emitChar]
    generalize t.sink.emit (String.singleton c) = y at he
    rcases y with ⟨f | _, sink⟩ <;> exact he
  · exact h

theorem isText_advance {cx : Context} {table : List Entry} (hb : ∀ e ∈ table, e.BuiltIn)
    {s : RunState} (h : s.sink.IsText) :
    ((advance cx table s).elim Prod.snd id).sink.IsText := by
  unfold advance
  rcases s.input.setMark.next with ⟨f | _ | c, i⟩
  · exact h
  · exact h
  · exact isText_settled ((tried_dispatch cx hb c { s with input := i }).isText h)

theorem isText_processFrom {cx : Context} {table : List Entry} (hb : ∀ e ∈ table, e.BuiltIn)
    {s : RunState} (h : s.sink.IsText) : (processFrom cx table s).2.sink.IsText := by
  induction s using advance_induct cx hb with
  | round s ih =>
    have ha : ((advance cx table s).elim Prod.snd id).sink.IsText := isText_advance hb h
    rw [processFrom_advance]
    cases hx : advance cx table s with
    | inl x =>
      rw [hx] at ha
      exact ha
    | inr t =>
      rw [hx] at ha
      exact ih t hx ha

/-! ## The end of the first part -/

/-- Between two rounds: the input stands at a cursor and the sink keeps text. -/
structure RunState.Rests (name : String) (s : RunState) : Prop where
  at_cursor : ∃ k, s.input.At k
  name : s.input.name = name
  isText : s.sink.IsText

/-- With nothing before it and nothing behind it, a run is itself. -/
theorem RunState.Rests.placed_zero {name : String} {s : RunState} (h : s.Rests name) :
    s.placed 0 [] "" = s := by
  obtain ⟨input, registry, sink⟩ := s
  obtain ⟨written, rfl⟩ := h.isText
  simp only [RunState.placed, Input.placed, List.append_nil, Nat.add_zero, Sink.behind,
    String.empty_append]

section Ends

variable {cx : Context} {table : List Entry} {name : String} {s t : RunState}

theorem RunState.Rests.advance (hb : ∀ e ∈ table, e.BuiltIn) (hs : s.Rests name)
    (h : advance cx table s = .inr t) : t.Rests name := by
  obtain ⟨k, hk⟩ := hs.at_cursor
  obtain ⟨hat, hname⟩ := hk.advance hb h
  refine ⟨hat, hname.trans hs.name, ?_⟩
  have ht : ((Sigil.advance cx table s).elim Prod.snd id).sink.IsText := isText_advance hb hs.isText
  rw [h] at ht
  exact ht

/-- **Rounds** of a part that goes through lead to its end, in the longer document too. -/
theorem exists_last (hb : ∀ e ∈ table, e.BuiltIn) (hn : ∀ e ∈ table, e.InLine)
    (hs : s.Rests name) (hl : s.input.remaining = [] ∨ s.input.LineAhead)
    (hok : (processFrom cx table s).1 = .ok ()) :
    ∃ t : RunState, t.Rests name ∧ t.input.remaining = [] ∧
      ∀ d more front, processFrom cx table (s.placed d more front) =
        processFrom cx table (t.placed d more front) := by
  induction s using advance_induct cx hb with
  | round s ih =>
    rcases hl with hr | hl
    · exact ⟨s, hs, hr, fun _ _ _ => rfl⟩
    · rw [processFrom_advance] at hok
      cases ha : advance cx table s with
      | inl x =>
        rw [ha] at hok
        obtain ⟨f, hf⟩ := exists_error_of_advance hl ha
        cases hf.symm.trans hok
      | inr u =>
        rw [ha] at hok
        obtain ⟨t, ht, hr, hrun⟩ := ih u ha (hs.advance hb ha) (hl.advance hb hn ha) hok
        refine ⟨t, ht, hr, fun d more front => ?_⟩
        have hc : s.input.Covered more := .inr hl
        rw [processFrom_advance, advance_placed d front hb hn hc (.inr ⟨u, ha⟩), ha]
        exact hrun d more front

/-- Only the next character counts. -/
theorem processFrom_congr_next (h : s.input.setMark.next = t.input.setMark.next)
    (hr : s.registry = t.registry) (hk : s.sink = t.sink) :
    processFrom cx table s = processFrom cx table t := by
  rw [processFrom_advance, processFrom_advance cx table t, advance, advance, h, hr, hk]

theorem ready_of_remaining {i : Input} (hl : i.Legible) (hr : i.remaining = []) :
    i.ready = [] ∧ i.lines = [] := by
  obtain ⟨hready, hlines⟩ := List.append_eq_nil_iff.1 hr
  refine ⟨hready, List.eq_nil_iff_forall_not_mem.2 fun l hm => ?_⟩
  obtain ⟨cs, rfl, hcs⟩ := hl l hm
  exact hcs (List.flatMap_eq_nil_iff.1 hlines _ hm)

/-- All that was pulled has been read, and the given lines follow. -/
structure Input.Drained (ls : List Line) (i : Input) : Prop where
  ready : i.ready = []
  lines : i.lines = ls
  window : i.windowStart + Input.byteLength i.window = i.offset

/-- The next line that is pulled replaces the window. -/
theorem Input.Drained.next_eq {line : List Char} {ls : List Line} {i j : Input}
    (hi : i.Drained (.text line :: ls)) (hj : j.Drained (.text line :: ls))
    (hname : i.name = j.name) (ho : i.offset = j.offset) : i.setMark.next = j.setMark.next := by
  have hrefill : ∀ i : Input, i.Drained (.text line :: ls) → i.setMark.refill line ls =
      { name := i.name, ready := line, lines := ls, window := line, windowStart := i.offset,
        mark := i.offset, offset := i.offset } := by
    intro i hi
    have hdrop := Input.dropBytes_append i.window []
    rw [List.append_nil] at hdrop
    have hreleased : min (i.offset - i.windowStart) (Input.byteLength i.window) =
        Input.byteLength i.window := by
      have := hi.window
      omega
    simp only [Input.refill, Input.setMark, hreleased, hdrop, List.nil_append, hi.window]
  rw [Input.next_of_line (i := i.setMark) hi.ready hi.lines,
    Input.next_of_line (i := j.setMark) hj.ready hj.lines, hrefill i hi, hrefill j hj, hname, ho]

/-- At the end a document goes through. -/
theorem outcome_of_end (hr : s.input.ready = []) (hl : s.input.lines = []) (hs : s.sink.IsText) :
    outcome (processFrom cx table s) = (.ok s.sink.contents, s.registry) := by
  rw [processFrom_advance, advance, Input.next_of_end (i := s.input.setMark) hr hl, hs.flush]
  rfl

/-- Where all that was pulled has been read, what was pulled does not matter. -/
theorem outcome_eq_of_drained (text : String) (hs : s.input.Drained (Text.linesOfText text))
    (ht : t.input.Drained (Text.linesOfText text)) (hname : s.input.name = t.input.name)
    (ho : s.input.offset = t.input.offset) (hr : s.registry = t.registry) (hk : s.sink = t.sink)
    (htext : t.sink.IsText) :
    outcome (processFrom cx table s) = outcome (processFrom cx table t) := by
  rcases hl : Text.linesOfText text with _ | ⟨l, ls⟩
  · rw [hl] at hs ht
    rw [outcome_of_end hs.ready hs.lines (hk ▸ htext), outcome_of_end ht.ready ht.lines htext,
      hr, hk]
  · obtain ⟨line, -, rfl⟩ := List.mem_map.1 (hl ▸ List.mem_cons_self : l ∈ Text.linesOfText text)
    rw [hl] at hs ht
    rw [processFrom_congr_next (hs.next_eq ht hname ho) hr hk]

/-- **The second part**, behind the end of the first. -/
theorem outcome_resumed (hs : s.Rests name) (hr : s.input.remaining = []) (text : String) :
    outcome (processFrom cx table (s.placed 0 (Text.linesOfText text) "")) =
      outcome (processFrom cx table (RunState.placed s.input.offset [] s.sink.contents
        ⟨.ofText name text, s.registry, .text ""⟩)) := by
  obtain ⟨⟨k, hk⟩, rfl, written, hw⟩ := hs
  obtain ⟨hready, hlines⟩ := ready_of_remaining hk.legible hr
  have hwindow := hk.windowStart_add
  rw [hready] at hwindow
  refine outcome_eq_of_drained text ⟨hready, ?_, hwindow⟩
    ⟨rfl, List.append_nil _, rfl⟩ rfl (Nat.zero_add _).symm rfl ?_ ⟨_, rfl⟩
  · show s.input.lines ++ _ = _
    rw [hlines, List.nil_append]
  · show s.sink.behind "" = Sink.behind s.sink.contents (.text "")
    rw [hw]
    exact congrArg Sink.text (String.empty_append.trans String.append_empty.symm)

end Ends

/-! ## Documents -/

theorem outcome_placed {d : Nat} {more : List Line} {front : String}
    {x : Except Failure Unit × RunState} (h : x.2.sink.IsText) :
    outcome (Prod.map id (RunState.placed d more front) x) =
      Prod.map (Except.map (front ++ ·)) id (outcome x) := by
  rcases x with ⟨f | _, s⟩
  · rfl
  · exact congrArg (fun o => (Except.ok o, s.registry)) (h.contents_behind front)

theorem ok_of_outcome {x : Except Failure Unit × RunState} {out : String} {registry : Registry}
    (h : outcome x = (.ok out, registry)) : x.1 = .ok () := by
  rcases x with ⟨f | _, s⟩
  · cases h
  · rfl

theorem outcome_processFrom_append {cx : Context} {table : List Entry}
    (hb : ∀ e ∈ table, e.BuiltIn) (hn : ∀ e ∈ table, e.InLine) {name front out : String}
    {registry registry' : Registry} (hl : Text.IsLines front)
    (h : outcome (processFrom cx table ⟨.ofText name front, registry, .text ""⟩) =
      (.ok out, registry')) (text : String) :
    outcome (processFrom cx table ⟨.ofText name (front ++ text), registry, .text ""⟩) =
      Prod.map (Except.map (out ++ ·)) id
        (outcome (processFrom cx table ⟨.ofText name text, registry', .text ""⟩)) := by
  let s : RunState := ⟨.ofText name front, registry, .text ""⟩
  have hs : s.Rests name := ⟨⟨_, Input.at_start name front⟩, rfl, ⟨"", rfl⟩⟩
  obtain ⟨t, ht, hend, hrun⟩ := exists_last hb hn hs (Text.IsLines.lineAhead hl name)
    (ok_of_outcome h)
  obtain ⟨k, hk⟩ := ht.at_cursor
  obtain ⟨hready, hlines⟩ := ready_of_remaining hk.legible hend
  -- the first part alone ends in `t`
  have hfirst : processFrom cx table s = processFrom cx table t := by
    have h0 := hrun 0 [] ""
    rwa [hs.placed_zero, ht.placed_zero] at h0
  obtain ⟨rfl, rfl⟩ : t.sink.contents = out ∧ t.registry = registry' := by
    rw [show processFrom cx table ⟨_, _, _⟩ = _ from hfirst,
      outcome_of_end hready hlines ht.isText] at h
    cases h
    exact ⟨rfl, rfl⟩
  have hsecond : (⟨.ofText name text, t.registry, .text ""⟩ : RunState).sink.IsText := ⟨"", rfl⟩
  calc outcome (processFrom cx table ⟨.ofText name (front ++ text), registry, .text ""⟩)
    _ = outcome (processFrom cx table (s.placed 0 (Text.linesOfText text) "")) := by
      rw [Input.ofText_append hl]
      rfl
    _ = outcome (processFrom cx table (t.placed 0 (Text.linesOfText text) "")) := by rw [hrun]
    _ = outcome (processFrom cx table (RunState.placed t.input.offset [] t.sink.contents
          ⟨.ofText name text, t.registry, .text ""⟩)) := outcome_resumed ht hend text
    _ = _ := by
      rw [processFrom_placed _ _ hb hn, outcome_placed (isText_processFrom hb hsecond)]

namespace Processor

/-- **Cutting.** A document whose first lines go through comes to what its other lines come to with
the macros that the first ones left: the same failure, or the same text behind that of the first
lines, and the same macros. -/
theorem processText_append (p : Processor) (hb : ∀ e ∈ p.table, e.BuiltIn)
    (hn : ∀ e ∈ p.table, e.InLine) {front out : String} {q : Processor}
    (hl : Text.IsLines front) (h : p.processText front = (.ok out, q)) (text : String) :
    p.processText (front ++ text) = Prod.map (Except.map (out ++ ·)) id (q.processText text) := by
  rw [processText_eq] at h
  obtain ⟨hout, rfl⟩ := Prod.mk.inj h
  have happend := outcome_processFrom_append hb hn hl (Prod.ext hout rfl) text
  rw [processText_eq, processText_eq]
  unfold process
  dsimp only
  rw [happend]
  rfl

/-- Other lines use a macro of the first one, and what is wrong in them is shown as in a document of
their own. -/
theorem processText_append_standard :
    (standard.processText ("#.(define-macro (m x) (x x))#c:(m b)\n" ++ "#c:(m ä)\n")).1 =
        .ok "b b\nä ä\n" ∧
      (standard.processText ("#.(define-macro (m x) (x x))#c:(m b)\n" ++ "ü #:(m \n")).1 =
        .error (.located .unbalancedList ⟨textName, "ü #:(m \n"⟩ ⟨5, 9⟩) := by
  have hb : ∀ e ∈ standard.table, e.BuiltIn := fun _ => builtIn_of_mem_standardTable
  have hn : ∀ e ∈ standard.table, e.InLine := by decide
  have hl : Text.IsLines "#.(define-macro (m x) (x x))#c:(m b)\n" := by decide
  have hfront : (standard.processText "#.(define-macro (m x) (x x))#c:(m b)\n").1 = .ok "b b\n" :=
    processText_eq_of_within Prod.fst 4 (by decide +kernel)
  have h := processText_append standard hb hn hl (Prod.ext hfront rfl)
  have hok : ((standard.processText "#.(define-macro (m x) (x x))#c:(m b)\n").2.processText
      "#c:(m ä)\n").1 = .ok "ä ä\n" :=
    processText_eq_of_within Prod.fst 3 (processText_eq_of_within
      (fun y => (y.2.textWithin 3 "#c:(m ä)\n").map Prod.fst) 4 (by decide +kernel))
  have herr : ((standard.processText "#.(define-macro (m x) (x x))#c:(m b)\n").2.processText
      "ü #:(m \n").1 = .error (.located .unbalancedList ⟨textName, "ü #:(m \n"⟩ ⟨5, 9⟩) :=
    processText_eq_of_within Prod.fst 3 (processText_eq_of_within
      (fun y => (y.2.textWithin 3 "ü #:(m \n").map Prod.fst) 4 (by decide +kernel))
  constructor
  · rw [h]
    exact congrArg (Except.map ("b b\n" ++ ·)) hok
  · rw [h]
    exact congrArg (Except.map ("b b\n" ++ ·)) herr

end Processor

end Sigil
