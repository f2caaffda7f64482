import Sigil.Proofs.LineEnds
import Sigil.Proofs.Reaching

/-!
# A part of a longer input

`Input.placed`: an input as a part of a longer one, with all its offsets moved and more lines behind
its own.  What reads a part never sees that it is one, as long as it does not come to its end: the
values are the same, the failures show the same text and point at the same place in it, and the
input that is left is placed in the same way (`Datum.read_placed`, `dispatch_placed`).

There are two ways not to come to the end.  No lines may be added, so that only the offsets move; or
the part ends in a line feed, and nothing that is read here is behind it (`Input.Covered`).
-/

namespace Sigil

open Text (Line)

namespace Input

/-- The input `d` bytes later, with more lines behind it. -/
def placed (d : Nat) (more : List Line) (i : Input) : Input :=
  { i with
    lines := i.lines ++ more
    windowStart := i.windowStart + d
    mark := i.mark + d
    offset := i.offset + d }

/-- There is something left of the input, or nothing is added to it. -/
def Room (more : List Line) (i : Input) : Prop := more = [] ∨ 0 < i.size

/-- A line end is ahead, or nothing is added. -/
def Covered (more : List Line) (i : Input) : Prop := more = [] ∨ i.LineAhead

variable {d : Nat} {more : List Line} {i j : Input} {c : Char}

theorem Room.of_le (h : j.Room more) (hle : j.size ≤ i.size) : i.Room more :=
  h.imp_right fun hj => Nat.lt_of_lt_of_le hj hle

theorem Covered.room (h : i.Covered more) : i.Room more := h.imp_right LineAhead.size_pos

theorem Covered.setMark (h : i.Covered more) : i.setMark.Covered more :=
  h.imp_right LineAhead.setMark

/-! ## Characters -/

theorem unread_placed (h : c.utf8Size ≤ i.offset) :
    (i.placed d more).unread c = (i.unread c).placed d more := by
  simp only [unread, placed, Input.mk.injEq, true_and]
  omega

theorem behind_placed (h : c.utf8Size ≤ i.offset) :
    (i.placed d more).behind c = i.behind c + d := by
  simp only [behind, placed]
  omega

theorem span_placed (start stop : Nat) :
    (i.placed d more).span (start + d) (stop + d) = i.span start stop := by
  simp only [span, placed, Nat.add_sub_add_right]

theorem failure_placed (fault : Fault) (start : Nat) :
    (i.placed d more).failure fault (start + d) = i.failure fault start :=
  congrArg (Failure.located fault i.source) (span_placed start i.offset)

theorem refill_placed (line : List Char) (rest : List Line) :
    (i.placed d more).refill line (rest ++ more) = (i.refill line rest).placed d more := by
  simp only [refill, placed, Nat.add_sub_add_right, Input.mk.injEq, true_and, and_true]
  omega

theorem pop_placed : (i.placed d more).pop = Prod.map id (placed d more) i.pop := by
  rcases hr : i.ready with _ | ⟨c, r⟩
  · have hr' : (i.placed d more).ready = [] := hr
    simp only [pop, hr, hr', Prod.map, id]
  · simp only [pop, hr, placed, Prod.map, id, Nat.add_right_comm]

/-- Reading a character, wherever it is not the end of the part that is read. -/
theorem next_placed_of_ne_end (h : i.ready = [] → i.lines = [] → more = []) :
    (i.placed d more).next = Prod.map id (placed d more) i.next := by
  rcases hr : i.ready with _ | ⟨c, r⟩
  · have hr' : (i.placed d more).ready = [] := hr
    rcases hl : i.lines with _ | ⟨line | reason, ls⟩
    · have hl' : (i.placed d more).lines = [] := by simp [placed, hl, h hr hl]
      rw [next_of_end hr hl, next_of_end hr' hl']
      rfl
    · have hl' : (i.placed d more).lines = .text line :: (ls ++ more) := by simp [placed, hl]
      rw [next_of_line hr hl, next_of_line hr' hl', refill_placed, pop_placed]
      rfl
    · have hl' : (i.placed d more).lines = .unreadable reason :: (ls ++ more) := by
        simp [placed, hl]
      rw [next_of_unreadable hr hl, next_of_unreadable hr' hl']
      rfl
  · have hr' : (i.placed d more).ready = c :: r := hr
    rw [next_of_ready hr, next_of_ready hr']
    simp only [placed, Prod.map, id, Nat.add_right_comm]

theorem next_placed (h : i.Room more) :
    (i.placed d more).next = Prod.map id (placed d more) i.next :=
  next_placed_of_ne_end fun hr hl => h.resolve_right (by simp [size, linesSize, hr, hl])

theorem Covered.next (h : i.Covered more) (hi : i.next = (.ok (some c), j)) (hc : c ≠ '\n') :
    j.Covered more := h.imp_right fun hl => hl.next hi hc

theorem utf8Size_le_of_next (h : i.next = (.ok (some c), j)) : c.utf8Size ≤ j.offset := by
  have ho := offset_next i
  rw [h] at ho
  simp only [taken, byteLength_cons, byteLength_nil] at ho
  omega

end Input

/-! ## Reading a datum -/

namespace Datum

open Input (Room placed next_placed unread_placed failure_placed behind_placed)

variable {d : Nat} {more : List Line} {i : Input}

/-- One step over blanks and comments, without the bound on the input that is left. -/
theorem significantFrom_next (b : Bool) (i : Input) :
    significantFrom b i =
      match i.next with
      | (.ok (some c), j) =>
        if b then significantFrom (c != '\n') j
        else if c = ';' then significantFrom true j
        else if Text.isBlank c then significantFrom false j
        else (.ok (some c), j)
      | r => r := by
  rw [significantFrom]
  split
  · next h => conv_rhs => rw [h]
  · next h =>
    rcases hn : i.next with ⟨f | _ | c, j⟩
    · rfl
    · rfl
    · exact (h c j hn).elim

theorem significantFrom_placed {b : Bool} (h : (significantFrom b i).2.Room more) :
    significantFrom b (i.placed d more) = Prod.map id (placed d more) (significantFrom b i) := by
  have hn := next_placed (d := d) (h.of_le (size_significantFrom b i _ rfl).1)
  fun_induction significantFrom b i with
  | case1 i c j hj _ ih =>
    rw [significantFrom_next, hn, hj]
    exact ih h (next_placed (h.of_le (size_significantFrom _ j _ rfl).1))
  | case2 b i j hb hj _ ih =>
    rw [significantFrom_next, hn, hj]
    simp only [Prod.map, id, if_neg hb]
    exact ih h (next_placed (h.of_le (size_significantFrom _ j _ rfl).1))
  | case3 b i c j hj _ hb hc hs ih =>
    rw [significantFrom_next, hn, hj]
    simp only [Prod.map, id, if_neg hb, if_neg hc, if_pos hs]
    exact ih h (next_placed (h.of_le (size_significantFrom _ j _ rfl).1))
  | case4 b i c j hj _ hb hc hs =>
    rw [significantFrom_next, hn, hj]
    simp only [Prod.map, id, if_neg hb, if_neg hc, if_neg hs]
  | case5 b i hne =>
    rw [significantFrom_next, hn]
    rcases hi : i.next with ⟨f | _ | c, j⟩
    · rfl
    · rfl
    · exact (hne c j hi).elim

theorem significant_placed {x : Except Failure (Option Char)} {j : Input}
    (hs : significant i = (x, j)) (h : j.Room more) :
    significant (i.placed d more) = (x, j.placed d more) := by
  have hs' : significantFrom false i = (x, j) := hs
  have hp := significantFrom_placed (d := d) (b := false) (i := i) (by rwa [hs'])
  rwa [hs'] at hp

/-- One step through an atom, without the bound on the input that is left. -/
theorem atomRest_next (i : Input) :
    (atomRest i).1 =
      match i.next with
      | (.error f, j) => (.error f, j)
      | (.ok none, j) => (.ok [], j)
      | (.ok (some c), j) =>
        if isDelimiter c then (.ok [], j.unread c)
        else ((atomRest j).1.1.map (c :: ·), (atomRest j).1.2) := by
  rw [atomRest]
  split
  · next h => conv_rhs => rw [h]
  · next h => conv_rhs => rw [h]
  · next c j h =>
    conv_rhs => rw [h]
    dsimp only
    split <;> rfl

theorem atomRest_placed (h : (atomRest i).1.2.Room more) :
    (atomRest (i.placed d more)).1 = Prod.map id (placed d more) (atomRest i).1 := by
  have hn := next_placed (d := d) (h.of_le (atomRest i).2)
  fun_induction atomRest i with
  | case1 i f j hj =>
    rw [atomRest_next, hn, hj]
    rfl
  | case2 i j hj =>
    rw [atomRest_next, hn, hj]
    rfl
  | case3 i c j hj _ hc =>
    rw [atomRest_next, hn, hj]
    simp only [Prod.map, id, if_pos hc, unread_placed (Input.utf8Size_le_of_next hj)]
  | case4 i c j hj _ hc ih =>
    have hj' := ih h (next_placed (h.of_le (atomRest j).2))
    rw [atomRest_next, hn, hj]
    simp only [Prod.map, id, if_neg hc, hj']
    rfl

/-- One step through a string, without the bound on the input that is left. -/
theorem stringRest_next (start : Nat) (b : Bool) (i : Input) :
    (stringRest start b i).1 =
      match i.next with
      | (.error f, j) => (.error f, j)
      | (.ok none, j) => (.error (j.failure (.unterminatedString b) start), j)
      | (.ok (some c), j) =>
        if !b && c == '"' then (.ok [c], j)
        else
          ((stringRest start (!b && c == '\\') j).1.1.map (c :: ·),
            (stringRest start (!b && c == '\\') j).1.2) := by
  rw [stringRest]
  split
  · next h => conv_rhs => rw [h]
  · next h => conv_rhs => rw [h]
  · next c j h =>
    conv_rhs => rw [h]
    dsimp only
    split <;> rfl

theorem stringRest_placed {start : Nat} {b : Bool} (h : (stringRest start b i).1.2.Room more) :
    (stringRest (start + d) b (i.placed d more)).1 =
      Prod.map id (placed d more) (stringRest start b i).1 := by
  have hn := next_placed (d := d) (h.of_le (stringRest start b i).2)
  fun_induction stringRest start b i with
  | case1 b i f j hj =>
    rw [stringRest_next, hn, hj]
    rfl
  | case2 b i j hj =>
    rw [stringRest_next, hn, hj]
    simp only [Prod.map, id, failure_placed]
  | case3 b i c j hj _ hc =>
    rw [stringRest_next, hn, hj]
    simp only [Prod.map, id, if_pos hc]
  | case4 b i c j hj _ hc ih =>
    have hj' := ih h (next_placed (h.of_le (stringRest start _ j).2))
    rw [stringRest_next, hn, hj]
    simp only [Prod.map, id, if_neg hc, hj']
    rfl

theorem utf8Size_le_of_significant {c : Char} {j : Input} (h : significant i = (.ok (some c), j)) :
    c.utf8Size ≤ j.offset := by
  obtain ⟨cs, hj⟩ := reaches_significant h
  have ho := hj.offset
  simp only [Input.taken, Input.byteLength_append, Input.byteLength_cons] at ho
  omega

theorem datumFrom_list (start : Nat) (i : Input) :
    (datumFrom start '(' i).1 =
      ((itemsFrom start (i.behind '(') i).1.1.map ('(' :: ·),
        (itemsFrom start (i.behind '(') i).1.2) := by
  rw [datumFrom_eq, if_pos rfl]

theorem datumFrom_close (start : Nat) (i : Input) :
    (datumFrom start ')' i).1 = (.error (i.failure .strayClose (i.behind ')')), i) := by
  rw [datumFrom_eq]
  rfl

theorem datumFrom_string (start : Nat) (i : Input) :
    (datumFrom start '"' i).1 =
      ((stringRest (i.behind '"') false i).1.1.map ('"' :: ·),
        (stringRest (i.behind '"') false i).1.2) := by
  rw [datumFrom_eq]
  rfl

theorem datumFrom_quote (start : Nat) (i : Input) :
    (datumFrom start '\'' i).1 =
      match significant i with
      | (.error f, j) => (.error f, j)
      | (.ok none, j) => (.error (j.failure .danglingQuote start), j)
      | (.ok (some c), j) =>
        ((datumFrom start c j).1.1.map ('\'' :: ·), (datumFrom start c j).1.2) := by
  rw [datumFrom_eq]
  rfl

theorem datumFrom_atom (start : Nat) {c : Char} (i : Input) (h1 : c ≠ '(') (h2 : c ≠ ')')
    (h3 : c ≠ '"') (h4 : c ≠ '\'') :
    (datumFrom start c i).1 = ((atomRest i).1.1.map (c :: ·), (atomRest i).1.2) := by
  rw [datumFrom_eq, if_neg h1, if_neg h2, if_neg h3, if_neg h4]

theorem datumFrom_and_itemsFrom_placed (start d : Nat) (more : List Line) :
    (∀ (c : Char) (i : Input), (datumFrom start c i).1.2.Room more → c.utf8Size ≤ i.offset →
      (datumFrom (start + d) c (i.placed d more)).1 =
        Prod.map id (placed d more) (datumFrom start c i).1) ∧
    (∀ (opened : Nat) (i : Input), (itemsFrom start opened i).1.2.Room more →
      (itemsFrom (start + d) (opened + d) (i.placed d more)).1 =
        Prod.map id (placed d more) (itemsFrom start opened i).1) := by
  apply datumFrom.mutual_induct start
  · -- a list
    intro i ih h ho
    rw [datumFrom_list] at h
    rw [datumFrom_list, datumFrom_list, behind_placed ho, ih h]
    rfl
  · -- a stray closing parenthesis
    intro i _ h ho
    rw [datumFrom_close, datumFrom_close, behind_placed ho, failure_placed]
    rfl
  · -- a string
    intro i _ _ h ho
    rw [datumFrom_string] at h
    rw [datumFrom_string, datumFrom_string, behind_placed ho, stringRest_placed h]
    rfl
  · -- a quote before a read failure
    intro i f j hs _ _ _ h ho
    rw [datumFrom_quote, hs] at h
    rw [datumFrom_quote, datumFrom_quote, significant_placed hs h, hs]
    rfl
  · -- a quote at the end of the input
    intro i j hs _ _ _ h ho
    rw [datumFrom_quote, hs] at h
    rw [datumFrom_quote, datumFrom_quote, significant_placed hs h, hs]
    simp only [Prod.map, id, failure_placed]
  · -- a quote before an expression
    intro i c j hs _ _ _ _ ih h ho
    rw [datumFrom_quote, hs] at h
    have hj : j.Room more := h.of_le (datumFrom start c j).2
    rw [datumFrom_quote, datumFrom_quote, significant_placed hs hj, hs]
    simp only [Prod.map, id, ih h (utf8Size_le_of_significant hs)]
  · -- an atom
    intro c i h1 h2 h3 h4 h ho
    rw [datumFrom_atom start i h1 h2 h3 h4] at h
    rw [datumFrom_atom start i h1 h2 h3 h4, datumFrom_atom _ _ h1 h2 h3 h4, atomRest_placed h]
    rfl
  · -- items before a read failure
    intro opened i f j hs h
    rw [itemsFrom_eq, hs] at h
    rw [itemsFrom_eq, itemsFrom_eq, significant_placed hs h, hs]
    rfl
  · -- items at the end of the input
    intro opened i j hs h
    rw [itemsFrom_eq, hs] at h
    rw [itemsFrom_eq, itemsFrom_eq, significant_placed hs h, hs]
    simp only [Prod.map, id, failure_placed]
  · -- the closing parenthesis
    intro opened i j hs _ h
    rw [itemsFrom_eq, hs] at h
    rw [itemsFrom_eq, itemsFrom_eq, significant_placed hs h, hs]
    rfl
  · -- an item that fails
    intro opened i c j hs _ hc f k hk hd ih h
    rw [itemsFrom_eq, hs] at h
    simp only [hc, ↓reduceIte, hd] at h
    have hj : j.Room more := h.of_le hk
    have hk' := ih (by rwa [hd]) (utf8Size_le_of_significant hs)
    rw [itemsFrom_eq, itemsFrom_eq, significant_placed hs hj, hs]
    simp only [Prod.map, id, hc, ↓reduceIte, hk', hd]
  · -- an item and those behind it
    intro opened i c j hs _ hc cs k hk hd _ ih ihk h
    rw [itemsFrom_eq, hs] at h
    simp only [hc, ↓reduceIte, hd] at h
    have hkr : k.Room more := h.of_le (itemsFrom start opened k).2
    have hj : j.Room more := hkr.of_le hk
    have hk' := ih (by rwa [hd]) (utf8Size_le_of_significant hs)
    rw [itemsFrom_eq, itemsFrom_eq, significant_placed hs hj, hs]
    simp only [Prod.map, id, hc, ↓reduceIte, hk', hd, ihk h]

/-- Reading an expression, without the bound on the input that is left. -/
theorem expressionFrom_eq (casing : Text.Casing) (c : Char) (i : Input) :
    (expressionFrom casing c i).1 =
      match (datumFrom (i.behind c) c i).1 with
      | (.error f, j) => (.error f, j)
      | (.ok cs, j) =>
        match parse casing (String.ofList cs) with
        | .ok e => (.ok e, j)
        | .error f =>
          (.error ((j.failure .unreadDatum (i.behind c)).withOrigin (.fault f.fault)), j) := by
  unfold expressionFrom
  rcases datumFrom (i.behind c) c i with ⟨⟨f | cs, j⟩, hj⟩
  · rfl
  · dsimp only
    rcases parse casing (String.ofList cs) with f | e <;> rfl

theorem expressionFrom_placed {casing : Text.Casing} {c : Char} {x : Except Failure Expr}
    {j : Input} (hx : (expressionFrom casing c i).1 = (x, j)) (h : j.Room more)
    (ho : c.utf8Size ≤ i.offset) :
    (expressionFrom casing c (i.placed d more)).1 = (x, j.placed d more) := by
  have hd := (datumFrom_and_itemsFrom_placed (i.behind c) d more).1 c i
  rw [expressionFrom_eq] at hx
  rw [expressionFrom_eq, behind_placed ho]
  generalize (datumFrom (i.behind c) c i).1 = y at hx hd
  rcases y with ⟨f | cs, k⟩
  · cases hx
    rw [hd h ho]
    rfl
  · dsimp only at hx
    split at hx
    · next e hp =>
      cases hx
      rw [hd h ho]
      simp only [Prod.map, id, hp]
    · next f hp =>
      cases hx
      rw [hd h ho]
      simp only [Prod.map, id, hp, failure_placed]

/-- **Reading.** -/
theorem read_placed {casing : Text.Casing} {x : Except Failure Expr} {j : Input}
    (hx : read casing i = (x, j)) (h : j.Room more) :
    read casing (i.placed d more) = (x, j.placed d more) := by
  unfold read at hx ⊢
  rcases hs : significant i with ⟨f | _ | c, k⟩
  · rw [hs] at hx
    cases hx
    rw [significant_placed hs h]
  · rw [hs] at hx
    cases hx
    rw [significant_placed hs h]
    exact congrArg (fun f => (Except.error f, j.placed d more)) (failure_placed _ j.offset)
  · rw [hs] at hx
    have hj : (expressionFrom casing c k).1 = (x, j) := hx
    have hk : k.Room more := h.of_le (by simpa only [hj] using (expressionFrom casing c k).2)
    rw [significant_placed hs hk]
    exact expressionFrom_placed hj h (utf8Size_le_of_significant hs)

end Datum

/-! ## Trying sigils -/

/-- How far a sigil matches in an input that is `d` bytes later. -/
def Match.placed (d : Nat) : Match → Match
  | .cutShort stop => .cutShort (stop + d)
  | m => m

/-- A try that gave its character back. -/
theorem utf8Size_le_of_matchRest {want : List Char} {c : Char} {i j k : Input} {m : Match}
    (hj : i.next = (.ok (some c), j)) (hk : matchRest want j = (.ok m, k)) (hm : m ≠ .full) :
    c.utf8Size ≤ k.offset := by
  obtain ⟨cs, hr, hcs⟩ := reaches_matchRest want j
  rw [hk] at hr hcs
  obtain rfl := hcs m rfl hm
  rw [hr.offset]
  exact Input.utf8Size_le_of_next hj

theorem matchRest_placed {d : Nat} {more : List Line} {want : List Char} {i : Input}
    (hw : '\n' ∉ want) (h : i.Covered more) :
    matchRest want (i.placed d more) =
      Prod.map (Except.map (Match.placed d)) (Input.placed d more) (matchRest want i) := by
  induction want generalizing i with
  | nil => rfl
  | cons w want ih =>
    rw [matchRest, matchRest, Input.next_placed h.room]
    rcases hj : i.next with ⟨f | _ | c, j⟩
    · rfl
    · rfl
    · simp only [Prod.map, id]
      split_ifs with hc
      · subst hc
        have hwant : '\n' ∉ want := fun hm => hw (List.mem_cons_of_mem _ hm)
        have hne : c ≠ '\n' := fun hx => hw (hx ▸ List.mem_cons_self ..)
        rw [ih hwant (h.next hj hne)]
        rcases hk : matchRest want j with ⟨f | m, k⟩
        · rfl
        · cases m with
          | full => rfl
          | differs =>
            have ho := utf8Size_le_of_matchRest hj hk (by simp)
            simp only [Prod.map, Except.map, Match.placed, Input.unread_placed ho]
          | cutShort stop =>
            have ho := utf8Size_le_of_matchRest hj hk (by simp)
            simp only [Prod.map, Except.map, Match.placed, Input.unread_placed ho]
      · rw [Input.unread_placed (Input.utf8Size_le_of_next hj)]
        rfl

theorem Input.Covered.matchRest {more : List Line} {want : List Char} {i : Input}
    (h : i.Covered more) (hw : '\n' ∉ want) : (matchRest want i).2.Covered more :=
  h.imp_right fun hl => (hl.matchRest hw).1

/-! ## Output -/

namespace Sink

/-- The sink with a text before all that was written to it, if it keeps text. -/
def behind (front : String) : Sink → Sink
  | .text written => .text (front ++ written)
  | s => s

theorem emit_behind (front : String) (s : Sink) (t : String) :
    (s.behind front).emit t = Prod.map id (behind front) (s.emit t) := by
  cases s with
  | discard => rfl
  | text written =>
    show (_, Sink.text _) = (Except.ok (), Sink.text _)
    rw [String.append_assoc]
  | device d => rfl

theorem flush_behind (front : String) (s : Sink) : (s.behind front).flush = s.flush := by
  cases s <;> rfl

theorem emitted_behind (front : String) (s : Sink) (registry : Registry)
    (x : Except Failure String) :
    (s.behind front).emitted registry x =
      Prod.map id (Prod.map id (behind front)) (s.emitted registry x) := by
  cases x with
  | error f => rfl
  | ok t =>
    rw [emitted, emit_behind]
    rfl

end Sink

/-- What was written before does not matter to a handler. -/
theorem Handler.effect_behind (h : Handler) (cx : Context) (e : Expr) (registry : Registry)
    (front : String) (s : Sink) :
    h.effect cx e registry (s.behind front) =
      Prod.map id (Prod.map id (Sink.behind front)) (h.effect cx e registry s) := by
  cases h with
  | printExpanded => exact Sink.emitted_behind ..
  | evaluateSilently => rfl
  | renderEvaluated =>
    simp only [effect]
    rcases cx.host e registry with ⟨f | value, registry'⟩
    · rfl
    · exact Sink.emitted_behind ..
  | renderExpanded => exact Sink.emitted_behind ..

/-! ## Dispatching -/

/-- What a run works on, as a part of a longer run that has already written `front`. -/
def RunState.placed (d : Nat) (more : List Line) (front : String) (s : RunState) : RunState :=
  { s with input := s.input.placed d more, sink := s.sink.behind front }

section Dispatching

variable {cx : Context} {table : List Entry} {more : List Line} {s : RunState} {c : Char}

theorem Handler.directive_placed (d : Nat) (front : String) (h : Handler) (sigil : String)
    (hr : (h.directive.run cx sigil s).2.input.Room more) :
    h.directive.run cx sigil (s.placed d more front) =
      Prod.map id (RunState.placed d more front) (h.directive.run cx sigil s) := by
  rw [h.directive_apply] at hr
  rw [h.directive_apply, h.directive_apply]
  rcases hj : Datum.read (h.casing cx.settings) s.input with ⟨f | e, j⟩
  · rw [hj] at hr
    rw [show Datum.read _ (s.placed d more front).input = _ from Datum.read_placed hj hr]
    rfl
  · rw [hj] at hr
    rw [show Datum.read _ (s.placed d more front).input = _ from Datum.read_placed hj hr]
    dsimp only
    rw [show h.effect cx e _ (s.placed d more front).sink = _ from h.effect_behind ..]
    rfl

theorem dispatchFrom_placed (d : Nat) (front : String) (hb : ∀ e ∈ table, e.BuiltIn)
    (hn : ∀ e ∈ table, e.InLine) {start : Nat} {cut : CutShort} (h : s.input.Covered more)
    (hr : (dispatchFrom cx start c cut table s).2.input.Room more) :
    dispatchFrom cx (start + d) c (cut.map (Prod.map id (· + d))) table (s.placed d more front) =
      Prod.map id (RunState.placed d more front) (dispatchFrom cx start c cut table s) := by
  induction table generalizing cut s with
  | nil =>
    rcases cut with _ | ⟨sigil, stop⟩
    · rfl
    · exact congrArg (fun sp => (Except.error (Failure.located (.sigilCutShort sigil)
        s.input.source sp), s.placed d more front)) (Input.span_placed start stop)
  | cons e es ih =>
    obtain ⟨⟨h', hd⟩, hbs⟩ := List.forall_mem_cons.1 hb
    obtain ⟨hne, hns⟩ := List.forall_mem_cons.1 hn
    have hm : matchRest e.rest (s.placed d more front).input = _ := matchRest_placed hne.rest h
    have hi := h.matchRest hne.rest
    rw [dispatchFrom_cons] at hr
    rw [dispatchFrom_cons, dispatchFrom_cons, hm]
    split_ifs at hr ⊢ with hc
    · generalize Sigil.matchRest e.rest s.input = x at hi hr
      rcases x with ⟨f | m, i⟩
      · rfl
      · cases m with
        | full =>
          simp only [Prod.map, Except.map, Match.placed, id, hd] at hr ⊢
          have hrun : h'.directive.run cx e.sigil
              { (s.placed d more front) with input := i.placed d more } = _ :=
            h'.directive_placed d front e.sigil hr
          rw [hrun]
          rfl
        | differs => exact ih hbs hns (s := { s with input := i }) hi hr
        | cutShort stop =>
          have hcut := ih hbs hns (s := { s with input := i }) hi hr
          rw [Option.map_or] at hcut
          exact hcut
    · exact ih hbs hns h hr

/-- **Dispatching.** -/
theorem dispatch_placed (d : Nat) (front : String) (hb : ∀ e ∈ table, e.BuiltIn)
    (hn : ∀ e ∈ table, e.InLine) (h : s.input.Covered more) (ho : c.utf8Size ≤ s.input.offset)
    (hr : (dispatch cx table c s).2.input.Room more) :
    dispatch cx table c (s.placed d more front) =
      Prod.map id (RunState.placed d more front) (dispatch cx table c s) := by
  rw [dispatch, Run.bind_apply] at hr
  rw [dispatch, Run.bind_apply, Run.bind_apply]
  have hd := dispatchFrom_placed d front hb hn h hr
  rw [← Input.behind_placed ho] at hd
  exact hd

end Dispatching

end Sigil
