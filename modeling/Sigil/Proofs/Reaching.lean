import Sigil.Proofs.Cursor
import Sigil.Proofs.Matching
import Sigil.Proofs.PlainReading

/-!
# What is reached by reading

`Input.Reaches`: one input is reached from another by reading characters and giving back the last of
them.  Everything that reads does no more than that (`Datum.reaches_read`, `reaches_matchRest`,
`tried_dispatch`), so what holds of each read and each return holds of it.  The offset grows by the
bytes that were read (`Reaches.offset`), and an input that stands at a cursor comes to stand at a
later one (`Reaches.at_cursor`).  A round of a document with built-in handlers leaves less to be
read (`size_advance_lt`), so there is an induction along its rounds (`advance_induct`).
-/

namespace Sigil

open Text (Line)

namespace Input

/-! ## One character -/

theorem next_of_ready {i : Input} {c : Char} {r : List Char} (h : i.ready = c :: r) :
    i.next = (.ok (some c), { i with ready := r, offset := i.offset + c.utf8Size }) := by
  rw [next, pull_of_ready (h ▸ List.cons_ne_nil c r)]
  dsimp only
  rw [pop, h]

theorem next_of_end {i : Input} (hr : i.ready = []) (hl : i.lines = []) :
    i.next = (.ok none, i) := by
  have hp : i.pull = (.ok (), i) := by simp only [pull, hr, hl]
  rw [next, hp]
  dsimp only
  rw [pop, hr]

theorem next_of_unreadable {i : Input} {reason : String} {rest : List Line} (hr : i.ready = [])
    (hl : i.lines = .unreadable reason :: rest) :
    i.next = (.error (i.unreadable reason), { i with lines := rest }) := by
  have hp : i.pull = (.error (i.unreadable reason), { i with lines := rest }) := by
    simp only [pull, hr, hl]
  rw [next, hp]

theorem next_of_line {i : Input} {line : List Char} {rest : List Line} (hr : i.ready = [])
    (hl : i.lines = .text line :: rest) :
    i.next = (.ok (i.refill line rest).pop.1, (i.refill line rest).pop.2) := by
  have hp : i.pull = (.ok (), i.refill line rest) := by simp only [pull, hr, hl]
  rw [next, hp]

/-- The character that was read, if there was one. -/
def taken : Except Failure (Option Char) → List Char
  | .ok (some c) => [c]
  | _ => []

/-- What reading a character does to the offset, and what it leaves alone. -/
theorem offset_next_and_name_next (i : Input) :
    i.next.2.offset = i.offset + byteLength (taken i.next.1) ∧ i.next.2.name = i.name := by
  rcases hr : i.ready with _ | ⟨c, r⟩
  · rcases hl : i.lines with _ | ⟨line | reason, ls⟩
    · rw [next_of_end hr hl]
      exact ⟨rfl, rfl⟩
    · rw [next_of_line hr hl]
      cases line <;> exact ⟨rfl, rfl⟩
    · rw [next_of_unreadable hr hl]
      exact ⟨rfl, rfl⟩
  · rw [next_of_ready hr]
    exact ⟨rfl, rfl⟩

theorem offset_next (i : Input) : i.next.2.offset = i.offset + byteLength (taken i.next.1) :=
  (offset_next_and_name_next i).1

theorem name_next (i : Input) : i.next.2.name = i.name := (offset_next_and_name_next i).2

/-! ## Reaching -/

/-- Reading `cs` from `i`, on the whole, leads to the given input. -/
inductive Reaches (i : Input) : List Char → Input → Prop
  | here : Reaches i [] i
  | next {cs : List Char} {j : Input} (h : Reaches i cs j) :
    Reaches i (cs ++ taken j.next.1) j.next.2
  | unread {cs : List Char} {c : Char} {j : Input} (h : Reaches i (cs ++ [c]) j) :
    Reaches i cs (j.unread c)

theorem reaches_next (i : Input) : i.Reaches (taken i.next.1) i.next.2 := by
  have h : i.Reaches [] i := .here
  exact h.next

namespace Reaches

variable {i j k : Input} {cs ds : List Char} {c : Char}

theorem trans (h : i.Reaches cs j) (h' : j.Reaches ds k) : i.Reaches (cs ++ ds) k := by
  induction h' with
  | here => rwa [List.append_nil]
  | next _ ih => exact List.append_assoc .. ▸ ih.next
  | unread _ ih => exact (List.append_assoc .. ▸ ih).unread

/-- Giving back a character that has just been read. -/
theorem back (h : i.Reaches [c] j) : i.Reaches [] (j.unread c) := by
  have h' : i.Reaches ([] ++ [c]) j := h
  exact h'.unread

theorem offset (h : i.Reaches cs j) : j.offset = i.offset + byteLength cs := by
  induction h with
  | here => rfl
  | next _ ih =>
    rw [offset_next, ih, byteLength_append, Nat.add_assoc]
  | @unread cs c j _ ih =>
    show j.offset - c.utf8Size = _
    rw [ih, byteLength_append, byteLength_cons, byteLength_nil]
    omega

theorem name (h : i.Reaches cs j) : j.name = i.name := by
  induction h with
  | here => rfl
  | next _ ih => rw [name_next, ih]
  | unread _ ih => exact ih

/-- Reading makes the input smaller, and giving back restores no more than was read. -/
theorem size_le (h : i.Reaches cs j) : j.size + cs.length ≤ i.size := by
  induction h with
  | here => exact Nat.le_refl _
  | @next cs j _ ih =>
    obtain ⟨hle, hlt⟩ := size_next j _ rfl
    rw [List.length_append]
    rcases hn : j.next.1 with f | _ | c
    · exact Nat.le_trans (Nat.add_le_add_right hle cs.length) ih
    · exact Nat.le_trans (Nat.add_le_add_right hle cs.length) ih
    · have hc := hlt c hn
      simp only [taken, List.length_singleton]
      omega
  | @unread cs c j _ ih =>
    rw [List.length_append, List.length_singleton] at ih
    rw [size_unread]
    omega

/-- An input that stood at a cursor stands behind the characters that were read. -/
theorem at_cursor {p : Cursor} (h : i.Reaches cs j) (hi : i.At p) :
    ∃ rest, p.ahead = cs ++ rest ∧ j.At { p with read := p.read ++ cs, ahead := rest } := by
  induction h with
  | here => exact ⟨p.ahead, rfl, by rwa [List.append_nil]⟩
  | @next cs j _ ih =>
    obtain ⟨rest, hr, hj⟩ := ih
    obtain ⟨hc, hat⟩ := hj.next
    rw [show j.next.1 = .ok rest.head? from hc]
    cases rest with
    | nil =>
      rw [show taken (.ok [].head?) = [] from rfl, List.append_nil]
      exact ⟨[], hr, hat⟩
    | cons c rest =>
      refine ⟨rest, by rw [hr, List.append_assoc]; rfl, ?_⟩
      rw [← List.append_assoc]
      exact hat
  | @unread cs c j _ ih =>
    obtain ⟨rest, hr, hj⟩ := ih
    have hback := hj.unread (c := c) (by
      show (p.read ++ (cs ++ [c])).getLast? = some c
      rw [← List.append_assoc, List.getLast?_concat])
    refine ⟨c :: rest, by rw [hr, List.append_assoc]; rfl, ?_⟩
    rwa [Cursor.after, ← List.append_assoc, List.dropLast_concat] at hback

end Reaches

end Input

/-! ## Reading a datum -/

namespace Datum

open Input (taken reaches_next)

theorem reaches_significantFrom (b : Bool) (i : Input) :
    ∃ cs, i.Reaches (cs ++ taken (significantFrom b i).1) (significantFrom b i).2 := by
  have hn := reaches_next i
  fun_induction significantFrom b i with
  | case1 i c j hj _ ih =>
    obtain ⟨cs, h⟩ := ih (reaches_next j)
    rw [hj] at hn
    exact ⟨[c] ++ cs, List.append_assoc .. ▸ hn.trans h⟩
  | case2 b i j hb hj _ ih =>
    obtain ⟨cs, h⟩ := ih (reaches_next j)
    rw [hj] at hn
    exact ⟨[';'] ++ cs, List.append_assoc .. ▸ hn.trans h⟩
  | case3 b i c j hj _ hb hc hs ih =>
    obtain ⟨cs, h⟩ := ih (reaches_next j)
    rw [hj] at hn
    exact ⟨[c] ++ cs, List.append_assoc .. ▸ hn.trans h⟩
  | case4 b i c j hj _ hb hc hs =>
    rw [hj] at hn
    exact ⟨[], hn⟩
  | case5 b i hne => exact ⟨[], hn⟩

theorem reaches_significant {i j : Input} {x : Except Failure (Option Char)}
    (h : significant i = (x, j)) : ∃ cs, i.Reaches (cs ++ taken x) j := by
  have hs := reaches_significantFrom false i
  rw [show significantFrom false i = (x, j) from h] at hs
  exact hs

theorem reaches_atomRest (i : Input) : ∃ cs, i.Reaches cs (atomRest i).1.2 := by
  have hn := reaches_next i
  fun_induction atomRest i with
  | case1 i f j hj => exact ⟨_, hj ▸ hn⟩
  | case2 i j hj => exact ⟨_, hj ▸ hn⟩
  | case3 i c j hj _ hc =>
    rw [hj] at hn
    exact ⟨[], hn.back⟩
  | case4 i c j hj _ hc ih =>
    obtain ⟨cs, h⟩ := ih (reaches_next j)
    rw [hj] at hn
    exact ⟨_, hn.trans h⟩

theorem reaches_stringRest (start : Nat) (b : Bool) (i : Input) :
    ∃ cs, i.Reaches cs (stringRest start b i).1.2 := by
  have hn := reaches_next i
  fun_induction stringRest start b i with
  | case1 b i f j hj => exact ⟨_, hj ▸ hn⟩
  | case2 b i j hj => exact ⟨_, hj ▸ hn⟩
  | case3 b i c j hj _ hc => exact ⟨_, hj ▸ hn⟩
  | case4 b i c j hj _ hc ih =>
    obtain ⟨cs, h⟩ := ih (reaches_next j)
    rw [hj] at hn
    exact ⟨_, hn.trans h⟩

theorem reaches_datumFrom_and_itemsFrom (start : Nat) :
    (∀ (c : Char) (i : Input), ∃ cs, i.Reaches cs (datumFrom start c i).1.2) ∧
    (∀ (opened : Nat) (i : Input), ∃ cs, i.Reaches cs (itemsFrom start opened i).1.2) := by
  apply datumFrom.mutual_induct start
  · -- a list
    intro i ih
    rw [datumFrom_eq, if_pos rfl]
    exact ih
  · -- a stray closing parenthesis
    intro i h1
    rw [datumFrom_eq]
    exact ⟨[], .here⟩
  · -- a string
    intro i h1 h2
    rw [datumFrom_eq]
    exact reaches_stringRest (i.behind '"') false i
  · -- a quote before a read failure
    intro i f j hs h1 h2 h3
    rw [datumFrom_eq, hs]
    exact (reaches_significant hs).imp' _ fun _ h => h
  · -- a quote at the end of the input
    intro i j hs h1 h2 h3
    rw [datumFrom_eq, hs]
    exact (reaches_significant hs).imp' _ fun _ h => h
  · -- a quote before an expression
    intro i c j hs _ h1 h2 h3 ih
    obtain ⟨cs, h⟩ := reaches_significant hs
    obtain ⟨ds, hd⟩ := ih
    rw [datumFrom_eq, hs]
    exact ⟨_, h.trans hd⟩
  · -- an atom
    intro c i h1 h2 h3 h4
    rw [datumFrom_eq, if_neg h1, if_neg h2, if_neg h3, if_neg h4]
    exact reaches_atomRest i
  · -- items before a read failure
    intro opened i f j hs
    rw [itemsFrom_eq, hs]
    exact (reaches_significant hs).imp' _ fun _ h => h
  · -- items at the end of the input
    intro opened i j hs
    rw [itemsFrom_eq, hs]
    exact (reaches_significant hs).imp' _ fun _ h => h
  · -- the closing parenthesis
    intro opened i j hs _
    rw [itemsFrom_eq, hs]
    exact (reaches_significant hs).imp' _ fun _ h => h
  · -- an item that fails
    intro opened i c j hs _ hc f k hk hd ih
    obtain ⟨cs, h⟩ := reaches_significant hs
    obtain ⟨ds, hds⟩ := ih
    rw [itemsFrom_eq, hs]
    simp only [hc, ↓reduceIte]
    rw [hd] at hds ⊢
    exact ⟨_, h.trans hds⟩
  · -- an item and those behind it
    intro opened i c j hs _ hc cs k hk hd _ ih ihk
    obtain ⟨bs, h⟩ := reaches_significant hs
    obtain ⟨ds, hds⟩ := ih
    obtain ⟨es, hes⟩ := ihk
    rw [itemsFrom_eq, hs]
    simp only [hc, ↓reduceIte]
    rw [hd] at hds ⊢
    exact ⟨_, (h.trans hds).trans hes⟩

theorem reaches_expressionFrom (casing : Text.Casing) (c : Char) (i : Input) :
    ∃ cs, i.Reaches cs (expressionFrom casing c i).1.2 := by
  have hd := (reaches_datumFrom_and_itemsFrom (i.behind c)).1 c i
  unfold expressionFrom
  generalize datumFrom (i.behind c) c i = x at hd
  rcases x with ⟨⟨f | cs, j⟩, hj⟩
  · exact hd
  · dsimp only
    split
    · exact hd
    · exact hd

/-- **Reading.** -/
theorem reaches_read (casing : Text.Casing) (i : Input) :
    ∃ cs, i.Reaches cs (read casing i).2 := by
  unfold read
  rcases hs : significant i with ⟨f | _ | c, j⟩
  · exact (reaches_significant hs).imp' _ fun _ h => h
  · exact (reaches_significant hs).imp' _ fun _ h => h
  · obtain ⟨cs, h⟩ := reaches_significant hs
    obtain ⟨ds, hd⟩ := reaches_expressionFrom casing c j
    exact ⟨_, h.trans hd⟩

end Datum

/-! ## Trying sigils -/

/-- **One try.** All that was read is given back if the sigil does not match. -/
theorem reaches_matchRest (want : List Char) (i : Input) :
    ∃ cs, i.Reaches cs (matchRest want i).2 ∧
      ∀ m, (matchRest want i).1 = .ok m → m ≠ .full → cs = [] := by
  induction want generalizing i with
  | nil => exact ⟨[], .here, fun _ _ _ => rfl⟩
  | cons w want ih =>
    have hn := Input.reaches_next i
    rw [matchRest]
    generalize i.next = x at hn
    rcases x with ⟨f | _ | c, j⟩
    · refine ⟨_, hn, fun m hm => ?_⟩
      cases hm
    · exact ⟨[], hn, fun _ _ _ => rfl⟩
    · obtain ⟨cs, h, hcs⟩ := ih j
      dsimp only
      split
      · generalize matchRest want j = x at h hcs
        rcases x with ⟨f | m, k⟩
        · refine ⟨_, hn.trans h, fun m hm => ?_⟩
          cases hm
        · cases m with
          | full => exact ⟨_, hn.trans h, fun m hm hne => absurd (Except.ok.inj hm).symm hne⟩
          | differs =>
            obtain rfl := hcs .differs rfl (by simp)
            exact ⟨[], (hn.trans h).back, fun _ _ _ => rfl⟩
          | cutShort stop =>
            obtain rfl := hcs (.cutShort stop) rfl (by simp)
            exact ⟨[], (hn.trans h).back, fun _ _ _ => rfl⟩
      · exact ⟨[], hn.back, fun _ _ _ => rfl⟩

/-- What trying a table of built-in sigils can come to: no sigil stands there and all is as it was,
there is a failure before the macros and the sink are touched, or a handler performs. -/
inductive Tried (cx : Context) (s : RunState) : Except Failure Bool × RunState → Prop
  | passed {cs : List Char} {i : Input} (hi : s.input.Reaches cs i) :
    Tried cx s (.ok false, { s with input := i })
  | failed {cs : List Char} {i : Input} (f : Failure) (hi : s.input.Reaches cs i) :
    Tried cx s (.error f, { s with input := i })
  | performed {cs : List Char} {i : Input} (h : Handler) (e : Expr) (hi : s.input.Reaches cs i) :
    Tried cx s ((h.effect cx e s.registry s.sink).1.map fun _ => true,
      ⟨i, (h.effect cx e s.registry s.sink).2.1, (h.effect cx e s.registry s.sink).2.2⟩)

theorem Tried.reaches {cx : Context} {s : RunState} {x : Except Failure Bool × RunState}
    (h : Tried cx s x) : ∃ cs, s.input.Reaches cs x.2.input := by
  cases h with
  | passed hi => exact ⟨_, hi⟩
  | failed f hi => exact ⟨_, hi⟩
  | performed h e hi => exact ⟨_, hi⟩

/-- A table is tried from where earlier sigils have left the input. -/
theorem Tried.trans {cx : Context} {s : RunState} {cs : List Char} {i : Input}
    {x : Except Failure Bool × RunState} (hi : s.input.Reaches cs i)
    (h : Tried cx { s with input := i } x) : Tried cx s x := by
  cases h with
  | passed hj => exact .passed (hi.trans hj)
  | failed f hj => exact .failed f (hi.trans hj)
  | performed h e hj => exact .performed h e (hi.trans hj)

theorem tried_dispatchFrom (cx : Context) {table : List Entry} (hb : ∀ e ∈ table, e.BuiltIn)
    (start : Nat) (c : Char) (cut : CutShort) (s : RunState) :
    Tried cx s (dispatchFrom cx start c cut table s) := by
  induction table generalizing cut s with
  | nil =>
    rcases cut with _ | ⟨sigil, stop⟩
    · exact .passed .here
    · exact .failed _ .here
  | cons e es ih =>
    obtain ⟨⟨h, hd⟩, hbs⟩ := List.forall_mem_cons.1 hb
    rw [dispatchFrom_cons]
    split
    · obtain ⟨cs, hi, -⟩ := reaches_matchRest e.rest s.input
      generalize matchRest e.rest s.input = x at hi
      rcases x with ⟨f | m, i⟩
      · exact .failed f hi
      · cases m with
        | full =>
          obtain ⟨ds, hj⟩ := Datum.reaches_read (h.casing cx.settings) i
          dsimp only
          rw [hd, h.directive_apply]
          dsimp only
          generalize Datum.read (h.casing cx.settings) i = x at hj
          rcases x with ⟨f | e, j⟩
          · exact .failed f (hi.trans hj)
          · exact .performed h e (hi.trans hj)
        | differs => exact (ih hbs cut { s with input := i }).trans hi
        | cutShort stop =>
          exact (ih hbs (cut.or (some (e.sigil, stop))) { s with input := i }).trans hi
    · exact ih hbs cut s

/-- **Trying the table.** -/
theorem tried_dispatch (cx : Context) {table : List Entry} (hb : ∀ e ∈ table, e.BuiltIn)
    (c : Char) (s : RunState) : Tried cx s (dispatch cx table c s) := by
  rw [dispatch, Run.bind_apply]
  exact tried_dispatchFrom cx hb (s.input.behind c) c none s

/-! ## Rounds -/

/-- **One round** with built-in handlers leaves less to be read. -/
theorem size_advance_lt {cx : Context} {table : List Entry} (hb : ∀ e ∈ table, e.BuiltIn)
    {s t : RunState} (h : advance cx table s = .inr t) : t.input.size < s.input.size := by
  obtain ⟨c, i, b, u, hi, hd, hu⟩ := exists_of_advance h
  obtain ⟨cs, hreach⟩ := (tried_dispatch cx hb c { s with input := i }).reaches
  rw [hd] at hreach
  have hnext : i.size < s.input.size := Input.size_setMark s.input ▸ Input.size_next_lt hi
  have hleft : u.input.size + cs.length ≤ i.size := hreach.size_le
  rw [hu]
  omega

/-- Induction along the rounds of a document with built-in handlers. -/
theorem advance_induct (cx : Context) {table : List Entry} (hb : ∀ e ∈ table, e.BuiltIn)
    {P : RunState → Prop} (round : ∀ s, (∀ t, advance cx table s = .inr t → P t) → P s)
    (s : RunState) : P s := by
  induction hn : s.input.size using Nat.strongRecOn generalizing s with
  | ind n ih => exact round s fun t ht => ih _ (hn ▸ size_advance_lt hb ht) t rfl

end Sigil
