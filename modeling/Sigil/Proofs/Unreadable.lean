import Sigil.Proofs.Cutting

/-!
# A line that cannot be read

`Processor.process_unreadable`: a line that cannot be read is never taken for the end of the input.
A document with such a line fails, having written and defined exactly what the lines before it write
and define.

1. Whatever reads passes on the failure to read a character (`Datum.significantFrom_of_error` and
   the like).  So it does in the longer input as in the readable part, or it fails
   (`Datum.tracks_read`).
2. One round of the document then goes as in the readable part, or it fails in both, before anything
   is written or defined (`advance_parallel`).
3. Where the readable part comes to its end, the document fails with the line that cannot be read
   (`breaks_of_end`).  So along all rounds both have written and defined the same
   (`processFrom_unreadable`).
-/

namespace Sigil

open Text (Line)

/-! ## Reading -/

namespace Input

variable {α β : Type} {d : Nat} {reason : String} {more : List Line}

/-- What is done in the longer input is what is done in the part, or it fails. -/
def Tracks (d : Nat) (more : List Line) (x y : Except Failure α × Input) : Prop :=
  y = Prod.map id (placed d more) x ∨ ∃ f j, y = (.error f, j)

/-- Where the part ends, reading fails. -/
theorem next_placed_of_end {i : Input} (hm : more.head? = some (.unreadable reason))
    (hr : i.ready = []) (hl : i.lines = []) :
    (i.placed d more).next =
      (.error (i.unreadable reason), { i.placed d more with lines := more.tail }) := by
  have hmore : (i.placed d more).lines = .unreadable reason :: more.tail := by
    rw [placed, hl, List.nil_append]
    exact List.eq_cons_of_mem_head? hm
  exact next_of_unreadable hr hmore

/-- **One character.** -/
theorem tracks_next (hm : more.head? = some (.unreadable reason)) (d : Nat) (i : Input) :
    Tracks d more i.next (i.placed d more).next := by
  by_cases h : i.ready = [] ∧ i.lines = []
  · exact .inr ⟨_, _, next_placed_of_end hm h.1 h.2⟩
  · exact .inl (next_placed_of_ne_end fun hr hl => absurd ⟨hr, hl⟩ h)

/-- What begins with a reading and passes on its failures. -/
theorem Tracks.andThen {x y : Except Failure α × Input} {x' y' : Except Failure β × Input}
    (h : Tracks d more x y) (hfail : ∀ f j, y = (.error f, j) → y' = (.error f, j))
    (hsame : y = Prod.map id (placed d more) x → Tracks d more x' y') : Tracks d more x' y' := by
  rcases h with h | ⟨f, j, h⟩
  · exact hsame h
  · exact .inr ⟨f, j, hfail f j h⟩

theorem Tracks.map {x y : Except Failure α × Input} (h : Tracks d more x y) (f : α → β) :
    Tracks d more (x.1.map f, x.2) (y.1.map f, y.2) := by
  rcases h with rfl | ⟨g, j, rfl⟩
  · exact .inl rfl
  · exact .inr ⟨g, j, rfl⟩

end Input

namespace Datum

open Input (Tracks tracks_next placed unread_placed failure_placed behind_placed)

variable {d : Nat} {reason : String} {more : List Line} {i : Input}

theorem significantFrom_of_error (b : Bool) (f : Failure) (j : Input)
    (h : i.next = (.error f, j)) : significantFrom b i = (.error f, j) := by
  rw [significantFrom_next, h]

theorem tracks_significantFrom (hm : more.head? = some (.unreadable reason)) (b : Bool)
    (i : Input) : Tracks d more (significantFrom b i) (significantFrom b (i.placed d more)) := by
  fun_induction significantFrom b i with
  | case1 i c j hj _ ih =>
    refine (tracks_next hm d i).andThen (significantFrom_of_error true) fun hn => ?_
    rw [significantFrom_next true, hn, hj]
    exact ih
  | case2 b i j hb hj _ ih =>
    refine (tracks_next hm d i).andThen (significantFrom_of_error b) fun hn => ?_
    rw [significantFrom_next b, hn, hj]
    simp only [Prod.map, id, if_neg hb]
    exact ih
  | case3 b i c j hj _ hb hc hs ih =>
    refine (tracks_next hm d i).andThen (significantFrom_of_error b) fun hn => ?_
    rw [significantFrom_next b, hn, hj]
    simp only [Prod.map, id, if_neg hb, if_neg hc, if_pos hs]
    exact ih
  | case4 b i c j hj _ hb hc hs =>
    refine (tracks_next hm d i).andThen (significantFrom_of_error b) fun hn => .inl ?_
    rw [significantFrom_next b, hn, hj]
    simp only [Prod.map, id, if_neg hb, if_neg hc, if_neg hs]
  | case5 b i hne =>
    refine (tracks_next hm d i).andThen (significantFrom_of_error b) fun hn => .inl ?_
    rw [significantFrom_next b, hn]
    rcases hi : i.next with ⟨f | _ | c, j⟩
    · rfl
    · rfl
    · exact (hne c j hi).elim

theorem tracks_significant (hm : more.head? = some (.unreadable reason)) (i : Input) :
    Tracks d more (significant i) (significant (i.placed d more)) :=
  tracks_significantFrom hm false i

theorem atomRest_of_error (f : Failure) (j : Input) (h : i.next = (.error f, j)) :
    (atomRest i).1 = (.error f, j) := by
  rw [atomRest_next, h]

theorem tracks_atomRest (hm : more.head? = some (.unreadable reason)) (i : Input) :
    Tracks d more (atomRest i).1 (atomRest (i.placed d more)).1 := by
  fun_induction atomRest i with
  | case1 i f j hj =>
    refine (tracks_next hm d i).andThen atomRest_of_error fun hn => .inl ?_
    rw [atomRest_next, hn, hj]
    rfl
  | case2 i j hj =>
    refine (tracks_next hm d i).andThen atomRest_of_error fun hn => .inl ?_
    rw [atomRest_next, hn, hj]
    rfl
  | case3 i c j hj _ hc =>
    refine (tracks_next hm d i).andThen atomRest_of_error fun hn => .inl ?_
    rw [atomRest_next, hn, hj]
    simp only [Prod.map, id, if_pos hc, unread_placed (Input.utf8Size_le_of_next hj)]
  | case4 i c j hj _ hc ih =>
    refine (tracks_next hm d i).andThen atomRest_of_error fun hn => ?_
    rw [atomRest_next (i.placed d more), hn, hj]
    simp only [Prod.map, id, if_neg hc]
    exact ih.map (c :: ·)

theorem stringRest_of_error (start : Nat) (b : Bool) (f : Failure) (j : Input)
    (h : i.next = (.error f, j)) : (stringRest start b i).1 = (.error f, j) := by
  rw [stringRest_next, h]

theorem tracks_stringRest (hm : more.head? = some (.unreadable reason)) (start : Nat) (b : Bool)
    (i : Input) : Tracks d more (stringRest start b i).1
      (stringRest (start + d) b (i.placed d more)).1 := by
  fun_induction stringRest start b i with
  | case1 b i f j hj =>
    refine (tracks_next hm d i).andThen (stringRest_of_error _ b) fun hn => .inl ?_
    rw [stringRest_next, hn, hj]
    rfl
  | case2 b i j hj =>
    refine (tracks_next hm d i).andThen (stringRest_of_error _ b) fun hn => .inl ?_
    rw [stringRest_next, hn, hj]
    simp only [Prod.map, id, failure_placed]
  | case3 b i c j hj _ hc =>
    refine (tracks_next hm d i).andThen (stringRest_of_error _ b) fun hn => .inl ?_
    rw [stringRest_next, hn, hj]
    simp only [Prod.map, id, if_pos hc]
  | case4 b i c j hj _ hc ih =>
    refine (tracks_next hm d i).andThen (stringRest_of_error _ b) fun hn => ?_
    rw [stringRest_next (start + d), hn, hj]
    simp only [Prod.map, id, if_neg hc]
    exact ih.map (c :: ·)

theorem datumFrom_quote_of_error (start : Nat) (f : Failure) (j : Input)
    (h : significant i = (.error f, j)) : (datumFrom start '\'' i).1 = (.error f, j) := by
  rw [datumFrom_quote, h]

theorem itemsFrom_of_error (start opened : Nat) (f : Failure) (j : Input)
    (h : significant i = (.error f, j)) : (itemsFrom start opened i).1 = (.error f, j) := by
  rw [itemsFrom_eq, h]

theorem itemsFrom_of_item_error {start opened : Nat} {c : Char} {j : Input}
    (hs : significant i = (.ok (some c), j)) (hc : c ≠ ')') (f : Failure) (k : Input)
    (h : (datumFrom start c j).1 = (.error f, k)) :
    (itemsFrom start opened i).1 = (.error f, k) := by
  rw [itemsFrom_eq, hs]
  simp only [hc, ↓reduceIte, h]

theorem tracks_datumFrom_and_itemsFrom (hm : more.head? = some (.unreadable reason))
    (start d : Nat) :
    (∀ (c : Char) (i : Input), c.utf8Size ≤ i.offset → Tracks d more (datumFrom start c i).1
      (datumFrom (start + d) c (i.placed d more)).1) ∧
    (∀ (opened : Nat) (i : Input), Tracks d more (itemsFrom start opened i).1
      (itemsFrom (start + d) (opened + d) (i.placed d more)).1) := by
  apply datumFrom.mutual_induct start
  · -- a list
    intro i ih ho
    rw [datumFrom_list, datumFrom_list, behind_placed ho]
    exact ih.map ('(' :: ·)
  · -- a stray closing parenthesis
    intro i _ ho
    rw [datumFrom_close, datumFrom_close, behind_placed ho, failure_placed]
    exact .inl rfl
  · -- a string
    intro i _ _ ho
    rw [datumFrom_string, datumFrom_string, behind_placed ho]
    exact (tracks_stringRest hm _ false i).map ('"' :: ·)
  · -- a quote before a read failure
    intro i f j hs _ _ _ ho
    refine (tracks_significant hm i).andThen (datumFrom_quote_of_error _) fun hn => .inl ?_
    rw [datumFrom_quote, datumFrom_quote, hn, hs]
    rfl
  · -- a quote at the end of the input
    intro i j hs _ _ _ ho
    refine (tracks_significant hm i).andThen (datumFrom_quote_of_error _) fun hn => .inl ?_
    rw [datumFrom_quote, datumFrom_quote, hn, hs]
    simp only [Prod.map, id, failure_placed]
  · -- a quote before an expression
    intro i c j hs _ _ _ _ ih ho
    refine (tracks_significant hm i).andThen (datumFrom_quote_of_error _) fun hn => ?_
    rw [datumFrom_quote, datumFrom_quote, hn, hs]
    exact (ih (utf8Size_le_of_significant hs)).map ('\'' :: ·)
  · -- an atom
    intro c i h1 h2 h3 h4 ho
    rw [datumFrom_atom start i h1 h2 h3 h4, datumFrom_atom _ _ h1 h2 h3 h4]
    exact (tracks_atomRest hm i).map (c :: ·)
  · -- items before a read failure
    intro opened i f j hs
    refine (tracks_significant hm i).andThen (itemsFrom_of_error _ _) fun hn => .inl ?_
    rw [itemsFrom_eq, itemsFrom_eq, hn, hs]
    rfl
  · -- items at the end of the input
    intro opened i j hs
    refine (tracks_significant hm i).andThen (itemsFrom_of_error _ _) fun hn => .inl ?_
    rw [itemsFrom_eq, itemsFrom_eq, hn, hs]
    simp only [Prod.map, id, failure_placed]
  · -- the closing parenthesis
    intro opened i j hs _
    refine (tracks_significant hm i).andThen (itemsFrom_of_error _ _) fun hn => .inl ?_
    rw [itemsFrom_eq, itemsFrom_eq, hn, hs]
    rfl
  · -- an item that fails
    intro opened i c j hs _ hc f k hk hd ih
    refine (tracks_significant hm i).andThen (itemsFrom_of_error _ _) fun hn => ?_
    rw [hs] at hn
    refine (ih (utf8Size_le_of_significant hs)).andThen (itemsFrom_of_item_error hn hc)
      fun hitem => .inl ?_
    rw [itemsFrom_eq, itemsFrom_eq, hn, hs]
    simp only [Prod.map, id, hc, ↓reduceIte, hitem, hd]
  · -- an item and those behind it
    intro opened i c j hs _ hc cs k hk hd _ ih ihk
    refine (tracks_significant hm i).andThen (itemsFrom_of_error _ _) fun hn => ?_
    rw [hs] at hn
    refine (ih (utf8Size_le_of_significant hs)).andThen (itemsFrom_of_item_error hn hc)
      fun hitem => ?_
    rw [itemsFrom_eq, itemsFrom_eq, hn, hs]
    simp only [Prod.map, id, hc, ↓reduceIte, hitem, hd]
    exact ihk.map fun ds => ' ' :: cs ++ ds

theorem expressionFrom_of_error {casing : Text.Casing} {c : Char} (f : Failure) (j : Input)
    (h : (datumFrom (i.behind c) c i).1 = (.error f, j)) :
    (expressionFrom casing c i).1 = (.error f, j) := by
  rw [expressionFrom_eq, h]

theorem tracks_expressionFrom (hm : more.head? = some (.unreadable reason)) (casing : Text.Casing)
    {c : Char} (ho : c.utf8Size ≤ i.offset) :
    Tracks d more (expressionFrom casing c i).1 (expressionFrom casing c (i.placed d more)).1 := by
  have hd := (tracks_datumFrom_and_itemsFrom hm (i.behind c) d).1 c i ho
  have hstart : (i.placed d more).behind c = i.behind c + d := behind_placed ho
  rw [← hstart] at hd
  refine hd.andThen expressionFrom_of_error fun hsame => .inl ?_
  rw [expressionFrom_eq, expressionFrom_eq, hsame, hstart]
  rcases (datumFrom (i.behind c) c i).1 with ⟨f | cs, j⟩
  · rfl
  · simp only [Prod.map, id, failure_placed]
    rcases parse casing (String.ofList cs) with f | e <;> rfl

theorem read_of_error (casing : Text.Casing) (f : Failure) (j : Input)
    (h : significant i = (.error f, j)) : read casing i = (.error f, j) := by
  rw [read, h]

/-- **Reading.** -/
theorem tracks_read (hm : more.head? = some (.unreadable reason)) (casing : Text.Casing)
    (i : Input) : Tracks d more (read casing i) (read casing (i.placed d more)) := by
  refine (tracks_significant hm i).andThen (read_of_error casing) fun hn => ?_
  unfold read
  rcases hs : significant i with ⟨f | _ | c, j⟩
  · rw [hn, hs]
    exact .inl rfl
  · rw [hn, hs]
    refine .inl (Prod.ext (congrArg Except.error ?_) rfl)
    exact failure_placed .missingExpression j.offset
  · rw [hn, hs]
    exact tracks_expressionFrom hm casing (utf8Size_le_of_significant hs)

end Datum

/-! ## Trying the table -/

/-- What a step comes to in the part and in the longer document: the same, or a failure in both
before anything is written or defined. -/
inductive Parallel {α : Type} (d : Nat) (more : List Line) (front : String) (s : RunState) :
    Except Failure α × RunState → Except Failure α × RunState → Prop
  | same (x : Except Failure α × RunState) :
    Parallel d more front s x (Prod.map id (RunState.placed d more front) x)
  | failed (f g : Failure) (i j : Input) :
    Parallel d more front s (.error f, { s with input := i })
      (.error g, { s.placed d more front with input := j })

section Rounds

variable {α β : Type} {cx : Context} {table : List Entry} {d : Nat} {more : List Line}
  {front reason : String} {s : RunState} {x y : Except Failure α × RunState}

/-- Where the input stands when the step begins does not matter. -/
theorem Parallel.of_input {i : Input} (h : Parallel d more front { s with input := i } x y) :
    Parallel d more front s x y := by
  cases h with
  | same x => exact .same x
  | failed f g i j => exact .failed f g i j

theorem Parallel.map (h : Parallel d more front s x y) (f : α → β) :
    Parallel d more front s (x.1.map f, x.2) (y.1.map f, y.2) := by
  cases h with
  | same x => exact .same (x.1.map f, x.2)
  | failed g g' i j => exact .failed g g' i j

/-- A handler whose expression ends in the part sees nothing of what follows; otherwise it fails to
read, and performs nothing. -/
theorem Handler.directive_parallel (cx : Context) (d : Nat) (front : String)
    (hm : more.head? = some (.unreadable reason)) (h : Handler) (sigil : String)
    (hs : s.input.LineAhead) :
    Parallel d more front s (h.directive.run cx sigil s)
      (h.directive.run cx sigil (s.placed d more front)) := by
  rcases hr : Datum.read (h.casing cx.settings) s.input with ⟨f | e, j⟩
  · rw [h.directive_apply, h.directive_apply, hr]
    have hy : Input.Tracks d more _ (Datum.read (h.casing cx.settings)
      (s.placed d more front).input) := Datum.tracks_read hm (h.casing cx.settings) s.input
    rcases hy with hy | ⟨g, k, hy⟩
    · rw [hy, hr]
      exact .failed f f j (j.placed d more)
    · rw [hy]
      exact .failed f g j k
  · have hroom : (h.directive.run cx sigil s).2.input.Room more := by
      rw [h.directive_apply, hr]
      exact .inr (hs.read hr).size_pos
    rw [h.directive_placed d front sigil hroom]
    exact .same _

theorem dispatchFrom_parallel (cx : Context) (d : Nat) (front : String)
    (hm : more.head? = some (.unreadable reason)) (hb : ∀ e ∈ table, e.BuiltIn)
    (hn : ∀ e ∈ table, e.InLine) (start : Nat) (c : Char) (hs : s.input.LineAhead) :
    Parallel d more front s (dispatchFrom cx start c none table s)
      (dispatchFrom cx (start + d) c none table (s.placed d more front)) := by
  induction table generalizing s with
  | nil => exact .same (.ok false, s)
  | cons e es ih =>
    obtain ⟨⟨h, hd⟩, hbs⟩ := List.forall_mem_cons.1 hb
    obtain ⟨hne, hns⟩ := List.forall_mem_cons.1 hn
    have hmatch : matchRest e.rest (s.placed d more front).input = _ :=
      matchRest_placed hne.rest (.inr hs)
    obtain ⟨hi, hcut⟩ := hs.matchRest hne.rest
    rw [dispatchFrom_cons, dispatchFrom_cons, hmatch]
    split_ifs
    · generalize matchRest e.rest s.input = x at hi hcut
      rcases x with ⟨f | m, i⟩
      · exact .same (.error f, { s with input := i })
      · cases m with
        | full =>
          rw [hd]
          have hrun : Parallel d more front { s with input := i } _ _ :=
            h.directive_parallel cx d front hm e.sigil hi
          exact (hrun.map fun _ => true).of_input
        | differs => exact (ih hbs hns (s := { s with input := i }) hi).of_input
        | cutShort stop => exact absurd rfl (hcut stop)
    · exact ih hbs hns hs

/-- **Trying the table.** -/
theorem dispatch_parallel (hm : more.head? = some (.unreadable reason))
    (hb : ∀ e ∈ table, e.BuiltIn) (hn : ∀ e ∈ table, e.InLine) {c : Char}
    (ho : c.utf8Size ≤ s.input.offset) (hs : s.input.LineAhead) :
    Parallel d more front s (dispatch cx table c s)
      (dispatch cx table c (s.placed d more front)) := by
  have hstart : (s.placed d more front).input.behind c = s.input.behind c + d :=
    Input.behind_placed ho
  have hd := dispatchFrom_parallel cx d front hm hb hn (s.input.behind c) c hs
  rw [← hstart] at hd
  rw [dispatch, Run.bind_apply, Run.bind_apply]
  exact hd

/-! ## Rounds -/

/-- What a round comes to in the part and in the longer document: the same, or a failure in both
before anything is written or defined. -/
inductive ParallelRound (d : Nat) (more : List Line) (front : String) (s : RunState) :
    (Except Failure Unit × RunState) ⊕ RunState → (Except Failure Unit × RunState) ⊕ RunState →
      Prop
  | same (x : (Except Failure Unit × RunState) ⊕ RunState) :
    ParallelRound d more front s x
      (x.map (Prod.map id (RunState.placed d more front)) (RunState.placed d more front))
  | failed (f g : Failure) (i j : Input) :
    ParallelRound d more front s (.inl (.error f, { s with input := i }))
      (.inl (.error g, { s.placed d more front with input := j }))

theorem Parallel.settled {x y : Except Failure Bool × RunState}
    (h : Parallel d more front s x y) (c : Char) :
    ParallelRound d more front s (settled c x) (settled c y) := by
  cases h with
  | same x =>
    rw [settled_placed]
    exact .same _
  | failed f g i j => exact .failed f g i j

/-- **One round.** -/
theorem advance_parallel (cx : Context) (d : Nat) (front : String)
    (hm : more.head? = some (.unreadable reason)) (hb : ∀ e ∈ table, e.BuiltIn)
    (hn : ∀ e ∈ table, e.InLine) (hs : s.input.LineAhead) :
    ParallelRound d more front s (advance cx table s)
      (advance cx table (s.placed d more front)) := by
  obtain ⟨c, i, hi, -⟩ := hs.setMark.exists_next
  have hnext : (s.placed d more front).input.setMark.next = Prod.map id (Input.placed d more) _ :=
    Input.next_placed (.inr hs.setMark.size_pos)
  have hd : Parallel d more front { s with input := i }
      (dispatch cx table c { s with input := i })
      (dispatch cx table c (RunState.placed d more front { s with input := i })) := by
    by_cases hc : c = '\n'
    · rw [hc, dispatch_lineFeed hn, dispatch_lineFeed hn]
      exact .same (.ok false, { s with input := i })
    · exact dispatch_parallel hm hb hn (Input.utf8Size_le_of_next hi) (hs.setMark.next hi hc)
  rw [advance, advance, hnext, hi]
  exact hd.of_input.settled c

/-- What a document comes to that has a line that cannot be read, beside what the lines before it
come to. -/
structure Breaks (name reason front : String) (x y : Except Failure Unit × RunState) : Prop where
  fails : ∃ f, y.1 = .error f
  sink : y.2.sink = x.2.sink.behind front
  registry : y.2.registry = x.2.registry
  unreadable : x.1 = .ok () →
    y.1 = .error ((Failure.plain (.unreadable name reason)).withOrigin (.device reason))

/-- At the end of the part. -/
theorem breaks_of_end (hm : more.head? = some (.unreadable reason)) (hr : s.input.ready = [])
    (hl : s.input.lines = []) :
    Breaks s.input.name reason front (processFrom cx table s)
      (processFrom cx table (s.placed d more front)) := by
  have hnext : (s.placed d more front).input.setMark.next = _ :=
    Input.next_placed_of_end (i := s.input.setMark) hm hr hl
  rw [processFrom_advance, processFrom_advance cx table (s.placed d more front), advance, advance,
    Input.next_of_end (i := s.input.setMark) hr hl, hnext]
  exact ⟨⟨_, rfl⟩, rfl, rfl, fun _ => rfl⟩

/-- **Rounds.** -/
theorem processFrom_unreadable (cx : Context) (d : Nat) (front : String)
    (hm : more.head? = some (.unreadable reason)) (hb : ∀ e ∈ table, e.BuiltIn)
    (hn : ∀ e ∈ table, e.InLine) {k : Cursor} (hk : s.input.At k)
    (hl : s.input.remaining = [] ∨ s.input.LineAhead) :
    Breaks s.input.name reason front (processFrom cx table s)
      (processFrom cx table (s.placed d more front)) := by
  induction s using advance_induct cx hb generalizing k with
  | round s ih =>
    rcases hl with hr | hl
    · -- the part is read to its end
      obtain ⟨hready, hlines⟩ := ready_of_remaining hk.legible hr
      exact breaks_of_end hm hready hlines
    · rw [processFrom_advance, processFrom_advance cx table (s.placed d more front)]
      have hround : ParallelRound d more front s _ _ :=
        advance_parallel cx d front hm hb hn hl
      generalize advance cx table (s.placed d more front) = y at hround
      generalize ha : advance cx table s = x at hround
      cases hround with
      | failed f g i j => exact ⟨⟨g, rfl⟩, rfl, rfl, nofun⟩
      | same x =>
        cases x with
        | inl x =>
          obtain ⟨f, hf⟩ := exists_error_of_advance hl ha
          refine ⟨⟨f, hf⟩, rfl, rfl, fun hok => ?_⟩
          exact absurd (hf.symm.trans hok) nofun
        | inr t =>
          obtain ⟨⟨k, hk⟩, hname⟩ := hk.advance hb ha
          rw [← hname]
          exact ih t ha hk (hl.advance hb hn ha)

end Rounds

/-! ## Bytes -/

namespace Text

/-- The bytes are those of a text. -/
def Decodes (line : List UInt8) : Prop := (⟨line.toArray⟩ : ByteArray).IsValidUTF8

instance (line : List UInt8) : Decidable (Decodes line) :=
  inferInstanceAs (Decidable (ByteArray.IsValidUTF8 _))

/-- The lines of raw bytes before the first one that cannot be read. -/
def readableLines (bytes : ByteArray) : List (List UInt8) :=
  (breakLines (· == 10) bytes.data.toList).takeWhile fun line => decide (Decodes line)

/-- The bytes of these lines. -/
def readablePart (bytes : ByteArray) : ByteArray := ⟨(readableLines bytes).flatten.toArray⟩

theorem decodes_iff {line : List UInt8} :
    Decodes line ↔ ∃ cs : List Char, line = cs.flatMap String.utf8EncodeChar := by
  constructor
  · rintro ⟨cs, hcs⟩
    refine ⟨cs, ?_⟩
    have := congrArg (·.data.toList) hcs
    simpa [List.utf8Encode, List.data_toByteArray] using this
  · rintro ⟨cs, rfl⟩
    refine ⟨cs, ?_⟩
    rw [List.utf8Encode]
    exact ByteArray.ext List.data_toByteArray.symm

theorem decodes_flatten {lines : List (List UInt8)} (h : ∀ line ∈ lines, Decodes line) :
    Decodes lines.flatten := by
  induction lines with
  | nil => exact decodes_iff.2 ⟨[], rfl⟩
  | cons line lines ih =>
    obtain ⟨hline, hlines⟩ := List.forall_mem_cons.1 h
    obtain ⟨cs, hcs⟩ := decodes_iff.1 hline
    obtain ⟨ds, hds⟩ := decodes_iff.1 (ih hlines)
    refine decodes_iff.2 ⟨cs ++ ds, ?_⟩
    rw [List.flatten_cons, hcs, hds, List.flatMap_append]

theorem Line.ofBytes_of_not_decodes {line : List UInt8} (h : ¬ Decodes line) :
    Line.ofBytes line = .unreadable noText := by
  have hnone : String.fromUTF8? ⟨line.toArray⟩ = none := dif_neg h
  rw [ofBytes, hnone]

/-- Lines before another one are the lines of what they hold, and the last of them has its end. -/
theorem breakLines_flatten {α : Type} {endsLine : α → Bool} {l line : List α}
    {lines rest : List (List α)} (h : breakLines endsLine l = lines ++ line :: rest) :
    breakLines endsLine lines.flatten = lines ∧
      ∀ a, lines.flatten.getLast? = some a → endsLine a = true := by
  induction l generalizing lines with
  | nil => cases lines <;> cases h
  | cons a l ih =>
    rcases lines with _ | ⟨first, lines⟩
    · exact ⟨rfl, nofun⟩
    rw [breakLines] at h
    split_ifs at h with ha
    · -- the first line is `a` alone
      obtain ⟨rfl, hrest⟩ := List.cons.inj h
      obtain ⟨hlines, hlast⟩ := ih hrest
      rw [List.flatten_cons, List.singleton_append]
      refine ⟨by rw [breakLines, if_pos ha, hlines], fun b hb => ?_⟩
      rw [List.getLast?_cons] at hb
      cases hx : lines.flatten.getLast? with
      | none =>
        rw [hx] at hb
        cases hb
        exact ha
      | some x =>
        rw [hx] at hb
        cases hb
        exact hlast x hx
    · -- `a` goes in front of the first line of the others
      rcases hl : breakLines endsLine l with _ | ⟨second, others⟩
      · rw [hl] at h
        simp at h
      · rw [hl] at h
        obtain ⟨rfl, hrest⟩ := List.cons.inj h
        have hl' : breakLines endsLine l = (second :: lines) ++ line :: rest := by
          rw [hl, hrest]
          rfl
        obtain ⟨hlines, hlast⟩ := ih hl'
        rw [List.flatten_cons] at hlines hlast
        rw [List.flatten_cons, List.cons_append]
        refine ⟨by rw [breakLines, if_neg ha, hlines], fun b hb => hlast b ?_⟩
        have hne : second ++ lines.flatten ≠ [] := by
          have := breakLines_ne_nil (hl ▸ List.mem_cons_self : second ∈ breakLines endsLine l)
          simp [this]
        rwa [List.getLast?_cons_of_ne_nil hne] at hb

/-- A text whose bytes end in a line feed, or that has none, is made of whole lines. -/
theorem isLines_of_getLast? {text : String}
    (h : ∀ b, text.toUTF8.data.toList.getLast? = some b → (b == 10) = true) : IsLines text := by
  rw [toUTF8_data_toList] at h
  rcases List.eq_nil_or_concat text.toList with hnil | ⟨cs, c, hcs⟩
  · exact .inl (String.toList_eq_nil_iff.1 hnil)
  · refine .inr ?_
    rw [EndsLine, hcs, List.concat_eq_append, List.getLast?_concat]
    by_contra hc
    have hc' : c ≠ '\n' := fun hx => hc (congrArg some hx)
    have hne : String.utf8EncodeChar c ≠ [] := String.utf8EncodeChar_ne_nil
    have hb := h ((String.utf8EncodeChar c).getLast hne) (by
      rw [hcs, List.concat_eq_append, List.flatMap_append, List.flatMap_singleton,
        List.getLast?_append_of_ne_nil _ hne, List.getLast?_eq_some_getLast hne])
    rw [beq_iff_eq] at hb
    exact lineFeed_not_mem_utf8EncodeChar hc' (hb ▸ List.getLast_mem hne)

theorem decodes_of_mem_readableLines {bytes : ByteArray} {line : List UInt8}
    (h : line ∈ readableLines bytes) : Decodes line := by
  have hd := List.mem_takeWhile_imp h
  exact of_decide_eq_true hd

/-- Bytes that are no text have a line that cannot be read behind the readable ones. -/
theorem exists_unreadable_line {bytes : ByteArray} (h : ¬ bytes.IsValidUTF8) :
    ∃ line rest, breakLines (· == 10) bytes.data.toList = readableLines bytes ++ line :: rest ∧
      ¬ Decodes line := by
  generalize hlines : breakLines (· == 10) bytes.data.toList = lines
  have hcut : lines = readableLines bytes ++ lines.dropWhile fun line => decide (Decodes line) := by
    rw [readableLines, hlines, List.takeWhile_append_dropWhile]
  rcases hrest : lines.dropWhile fun line => decide (Decodes line) with _ | ⟨line, rest⟩
  · -- else all lines are readable, and so are the bytes
    rw [hrest, List.append_nil] at hcut
    have hall : Decodes lines.flatten :=
      decodes_flatten fun line hl => decodes_of_mem_readableLines (hcut ▸ hl)
    rw [← hlines, flatten_breakLines] at hall
    exact absurd hall h
  · have hline := List.head?_dropWhile_not (fun line => decide (Decodes line)) lines
    rw [hrest] at hcut hline
    exact ⟨line, rest, hcut, of_decide_eq_false hline⟩

/-- The readable part is a text of whole lines, and behind them comes the line that cannot be
read. -/
theorem exists_readablePart {bytes : ByteArray} (h : ¬ bytes.IsValidUTF8) :
    ∃ text rest, IsLines text ∧ readablePart bytes = text.toUTF8 ∧
      linesOfBytes bytes = linesOfText text ++ .unreadable Line.noText :: rest := by
  obtain ⟨line, rest, hcut, hline⟩ := exists_unreadable_line h
  obtain ⟨hlines, hlast⟩ := breakLines_flatten hcut
  obtain ⟨cs, hcs⟩ := decodes_iff.1 (decodes_flatten fun _ => decodes_of_mem_readableLines)
  have htext : (String.ofList cs).toUTF8.data.toList = (readableLines bytes).flatten := by
    rw [toUTF8_data_toList, String.toList_ofList, hcs]
  refine ⟨String.ofList cs, rest.map Line.ofBytes, isLines_of_getLast? (htext ▸ hlast), ?_, ?_⟩
  · refine ByteArray.ext ?_
    rw [readablePart, ← htext, Array.toArray_toList]
  · rw [← linesOfBytes_toUTF8, linesOfBytes, linesOfBytes, htext, hlines, hcut, List.map_append,
      List.map_cons, Line.ofBytes_of_not_decodes hline]

end Text

/-! ## Documents -/

theorem Sink.behind_empty (s : Sink) : s.behind "" = s := by
  cases s with
  | discard => rfl
  | text written => exact congrArg Sink.text String.empty_append
  | device d => rfl

namespace Processor

/-- **A line that cannot be read** is never taken for the end of the input.  Bytes that are no text
make a document fail.  What it has written and defined by then is what the lines before the first
unreadable one write and define, as a document of their own; and where that document goes through,
the failure is that of the line. -/
theorem process_unreadable (p : Processor) (hb : ∀ e ∈ p.table, e.BuiltIn)
    (hn : ∀ e ∈ p.table, e.InLine) (name : String) {bytes : ByteArray} (h : ¬ bytes.IsValidUTF8)
    (sink : Sink) :
    let alone := p.process (.ofBytes name (Text.readablePart bytes)) sink
    let whole := p.process (.ofBytes name bytes) sink
    (∃ f, whole.1 = .error f) ∧
      whole.2.sink = alone.2.sink ∧ whole.2.registry = alone.2.registry ∧
      (alone.1 = .ok () → ∃ f, whole.1 = .error f ∧
        f.fault = .unreadable name Line.noText ∧ f.fault.kind = .io) := by
  intro alone whole
  obtain ⟨text, rest, hl, hpart, hlines⟩ := Text.exists_readablePart h
  let s : RunState := ⟨.ofText name text, p.registry, sink⟩
  have halone : alone = processFrom p.context p.table s := by
    show p.process (.ofBytes name (Text.readablePart bytes)) sink = _
    rw [hpart, Input.ofBytes_toUTF8]
    rfl
  have hwhole : whole = processFrom p.context p.table
      (s.placed 0 (.unreadable Line.noText :: rest) "") := by
    have hinput : Input.ofBytes name bytes = (Input.ofText name text).placed 0 _ :=
      congrArg (fun lines => ({ name, lines } : Input)) hlines
    show p.process (.ofBytes name bytes) sink = _
    rw [hinput, RunState.placed, Sink.behind_empty]
    rfl
  have hahead : s.input.remaining = [] ∨ s.input.LineAhead := Text.IsLines.lineAhead hl name
  have hbreaks : Breaks name Line.noText "" _ (processFrom p.context p.table
      (s.placed 0 (.unreadable Line.noText :: rest) "")) :=
    processFrom_unreadable p.context 0 "" rfl hb hn (Input.at_start name text) hahead
  rw [halone, hwhole]
  refine ⟨hbreaks.fails, ?_, hbreaks.registry, fun hok => ⟨_, hbreaks.unreadable hok, rfl, rfl⟩⟩
  rw [hbreaks.sink, Sink.behind_empty]

/-- A line that cannot be read behind a definition and its use, and one inside a list that is still
open there: the first lines alone go through in the one case and fail in the other. -/
theorem process_unreadable_torn :
    let bytes := "#.(define-macro (m x) (x x))#c:(m b)\n".toUTF8 ++ ⟨#[0x23, 0x3a, 0xff, 10, 0x61]⟩
    let inList := "a #c:(m\n".toUTF8 ++ ⟨#[0x62, 0xff, 0x29]⟩
    let ran := standard.process (.ofBytes inputName bytes) (.text "")
    let ranInList := standard.process (.ofBytes inputName inList) (.text "")
    ¬ bytes.IsValidUTF8 ∧ ¬ inList.IsValidUTF8 ∧
      ran.2.sink.contents = "b b\n" ∧ (∃ f, ran.1 = .error f ∧ f.fault.kind = .io) ∧
      ranInList.2.sink.contents = "a " ∧ ∃ f, ranInList.1 = .error f := by
  intro bytes inList ran ranInList
  have hb : ∀ e ∈ standard.table, e.BuiltIn := fun _ => builtIn_of_mem_standardTable
  have hn : ∀ e ∈ standard.table, e.InLine := by decide
  have hbytes : ¬ bytes.IsValidUTF8 := by decide +kernel
  have hinList : ¬ inList.IsValidUTF8 := by decide +kernel
  obtain ⟨-, hsink, -, hio⟩ := process_unreadable standard hb hn inputName hbytes (.text "")
  obtain ⟨hfails, hsink', -⟩ := process_unreadable standard hb hn inputName hinList (.text "")
  have hok : (standard.process (.ofBytes inputName (Text.readablePart bytes)) (.text "")).1 =
      .ok () := process_eq_of_within Prod.fst 4 (by decide +kernel)
  obtain ⟨f, hf, -, hkind⟩ := hio hok
  refine ⟨hbytes, hinList, ?_, ⟨f, hf, hkind⟩, ?_, hfails⟩
  · rw [show ran.2.sink = _ from hsink]
    exact process_eq_of_within (·.2.sink.contents) 4 (by decide +kernel)
  · rw [show ranInList.2.sink = _ from hsink']
    exact process_eq_of_within (·.2.sink.contents) 3 (by decide +kernel)

end Processor

end Sigil
