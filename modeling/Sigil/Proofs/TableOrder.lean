import Sigil.Proofs.Diagnostics
import Sigil.Proofs.Lookahead

/-!
# The order of a table

* `Processor.processText_without_shadowed`: an entry whose sigil starts with the sigil of an earlier
  one is dead.  Without it every document is processed in the same way.
* `Processor.processText_reordered`: where no sigil starts with another, the order of the entries
  does not matter, but for the sigil that is named where the text ends inside one.

1. Documents are processed alike by two tables if trying them at a character comes to the same, up
   to how it fails (`Interchanged`).
2. Where the shorter of two sigils does not stand, the longer one does not either; it looks no
   farther, and where the text ends inside it, the text ends inside the shorter one
   (`Entry.Shadows`).  So nothing is left of passing over it (`dispatchFrom_drop`).
3. Where no sigil starts with another, at most one of them stands there, and none looks farther than
   that one (`dispatchFrom_of_apart`).  Where none of them stands, all are passed over in any order.
-/

namespace Sigil

open Input (byteLength)

/-! ## Tables that come to the same -/

/-- The same outcome, or failures that are related, with the same left behind. -/
inductive Agree {α β : Type} (Q : Failure → Failure → Prop) :
    Except Failure α × β → Except Failure α × β → Prop
  | same (x : Except Failure α × β) : Agree Q x x
  | failed {f g : Failure} (t : β) (h : Q f g) : Agree Q (.error f, t) (.error g, t)

namespace Agree

variable {Q : Failure → Failure → Prop}

theorem eq {α β : Type} {x y : Except Failure α × β} (h : Agree Eq x y) : x = y := by
  cases h with
  | same x => rfl
  | failed t h => rw [h]

theorem settled {x y : Except Failure Bool × RunState} (h : Agree Q x y) (c : Char) :
    Sum.LiftRel (Agree Q) Eq (settled c x) (settled c y) := by
  cases h with
  | same x =>
    cases Sigil.settled c x with
    | inl z => exact .inl (.same z)
    | inr t => exact .inr rfl
  | failed t h => exact .inl (.failed t h)

theorem outcome {x y : Except Failure Unit × RunState} (h : Agree Q x y) :
    Agree Q (outcome x) (outcome y) := by
  cases h with
  | same x => exact .same _
  | failed t h => exact .failed t.registry h

end Agree

/-- Trying either of two tables at a character of a text comes to the same, up to how it fails. -/
def Interchanged (cx : Context) (Q : Failure → Failure → Prop) (table table' : List Entry) : Prop :=
  ∀ (c : Char) (s : RunState) (P r : List Char), s.input.At ⟨P, [c], r⟩ →
    Agree Q (dispatch cx table c s) (dispatch cx table' c s)

namespace Interchanged

variable {cx : Context} {Q : Failure → Failure → Prop} {table table' : List Entry} {s : RunState}
  {k : Cursor}

/-- **One round.** -/
theorem advance (h : Interchanged cx Q table table') (hs : s.input.At k) :
    Sum.LiftRel (Agree Q) Eq (advance cx table s) (advance cx table' s) := by
  unfold Sigil.advance
  rcases hi : s.input.setMark.next with ⟨f | _ | c, i⟩
  · exact .inl (.same _)
  · exact .inl (.same _)
  · obtain ⟨r, -, hat⟩ := hs.next_mark hi
    exact (h c { s with input := i } k.before r hat).settled c

/-- **Rounds.** -/
theorem processFrom (h : Interchanged cx Q table table') (hb : ∀ e ∈ table, e.BuiltIn)
    (hs : s.input.At k) : Agree Q (processFrom cx table s) (processFrom cx table' s) := by
  induction s using advance_induct cx hb generalizing k with
  | round s ih =>
    have hround := h.advance hs
    rw [processFrom_advance, processFrom_advance cx table' s]
    generalize hy : Sigil.advance cx table' s = y at hround
    cases hx : Sigil.advance cx table s with
    | inl x =>
      rw [hx] at hround
      cases hround with
      | inl hxy => exact hxy
    | inr t =>
      rw [hx] at hround
      cases hround with
      | inr heq =>
        subst heq
        obtain ⟨⟨k', hk'⟩, -⟩ := hs.advance hb hx
        exact ih t hx hk'

theorem process {p : Processor} (h : Interchanged p.context Q p.table table)
    (hb : ∀ e ∈ p.table, e.BuiltIn) (name text : String) (sink : Sink) :
    Agree Q (p.process (.ofText name text) sink)
      ({ p with table }.process (.ofText name text) sink) :=
  h.processFrom hb (Input.at_start name text)

end Interchanged

/-! ## Sigils that start with others -/

namespace Entry

/-- The sigil of the second entry starts with that of the first. -/
def Shadows (e f : Entry) : Prop := e.sigil.toList <+: f.sigil.toList

instance (e f : Entry) : Decidable (e.Shadows f) := inferInstanceAs (Decidable (_ <+: _))

namespace Shadows

variable {e f : Entry} {text : List Char}

theorem stands (h : e.Shadows f) (hf : f.Stands text) : e.Stands text := h.trans hf

theorem isCut (h : e.Shadows f) (he : ¬ e.Stands text) (hf : f.IsCut text) : e.IsCut text := by
  refine ⟨(List.prefix_or_prefix_of_prefix hf.1 h).resolve_right he, ?_⟩
  rintro rfl
  exact he List.prefix_rfl

theorem lookahead_eq (h : e.Shadows f) (he : ¬ e.Stands text) :
    f.lookahead text = e.lookahead text := by
  rw [lookahead, lookahead, looked_eq_of_not_stands h he]

end Shadows

/-- Neither sigil starts with the other. -/
def Apart (e f : Entry) : Prop := ¬ e.Shadows f ∧ ¬ f.Shadows e

instance (e f : Entry) : Decidable (e.Apart f) := inferInstanceAs (Decidable (_ ∧ _))

namespace Apart

variable {e f : Entry} {text : List Char}

theorem symm (h : e.Apart f) : f.Apart e := And.symm h

/-- Only one of two such sigils stands at a place. -/
theorem not_stands (h : e.Apart f) (he : e.Stands text) : ¬ f.Stands text := fun hf =>
  (List.prefix_or_prefix_of_prefix he hf).elim h.1 h.2

theorem lookahead_le (h : e.Apart f) (he : e.Stands text) :
    f.lookahead text ≤ e.lookahead text :=
  Nat.sub_le_sub_right (looked_le_of_stands he h.1) 1

end Apart

end Entry

theorem isSome_noted_iff {table : List Entry} {text : List Char} {stop : Nat} :
    (noted table text stop).isSome ↔ ∃ e ∈ table, e.IsCut text := by
  simp [noted, Entry.noted]

theorem exists_of_noted {table : List Entry} {text : List Char} {stop : Nat} {x : String × Nat}
    (h : noted table text stop = some x) : ∃ e ∈ table, x = (e.sigil, stop) := by
  obtain ⟨e, he, hx⟩ := List.exists_of_findSome?_eq_some h
  rw [Entry.noted] at hx
  split at hx
  · exact ⟨e, he, (Option.some.inj hx).symm⟩
  · cases hx

/-- A shadowed entry looks no farther than those in front of it. -/
theorem Entry.Shadows.lookahead_le {front : List Entry} {e f : Entry} {text : List Char}
    (h : e.Shadows f) (he : e ∈ front) (hs : ¬ e.Stands text) :
    f.lookahead text ≤ Sigil.lookahead front text := by
  rw [h.lookahead_eq hs]
  exact lookahead_le_iff.1 (Nat.le_refl _) e he

/-- Nothing is noted of a shadowed entry. -/
theorem Entry.Shadows.noted_or {front : List Entry} {e f : Entry} {text : List Char}
    (h : e.Shadows f) (he : e ∈ front) (hs : ¬ e.Stands text) (stop : Nat) :
    (Sigil.noted front text stop).or (f.noted text stop) = Sigil.noted front text stop := by
  by_cases hcut : f.IsCut text
  · exact Option.or_of_isSome (isSome_noted_iff.2 ⟨e, he, h.isCut hs hcut⟩)
  · rw [Entry.noted, if_neg hcut, Option.or_none]

/-- The first entry that stands there, if there is one. -/
theorem exists_first_stands {table : List Entry} {text : List Char}
    (h : ∃ e ∈ table, e.Stands text) : ∃ front e es, table = front ++ e :: es ∧
      (∀ x ∈ front, ¬ x.Stands text) ∧ e.Stands text := by
  obtain ⟨e, he⟩ : ∃ e, table.find? (·.Stands text) = some e := by
    rw [← Option.isSome_iff_exists, List.find?_isSome]
    simpa using h
  obtain ⟨hstands, front, es, rfl, hfront⟩ := List.find?_eq_some_iff_append.1 he
  exact ⟨front, e, es, rfl, by simpa using hfront, by simpa using hstands⟩

section Tables

variable (cx : Context) (start : Nat) {c : Char} {P r : List Char} {s : RunState}

/-- **Dead entries.** An entry behind one that shadows it does nothing. -/
theorem dispatchFrom_drop {front es : List Entry} {e f : Entry} (hs : s.input.At ⟨P, [c], r⟩)
    (he : e ∈ front) (h : e.Shadows f) (cut : CutShort) :
    dispatchFrom cx start c cut (front ++ f :: es) s =
      dispatchFrom cx start c cut (front ++ es) s := by
  by_cases hfront : ∃ x ∈ front, x.Stands (c :: r)
  · obtain ⟨front, x, more, rfl, hnone, hx⟩ := exists_first_stands hfront
    rw [List.append_assoc, List.append_assoc, List.cons_append, List.cons_append,
      dispatchFrom_append_cons cx start hs hnone hx, dispatchFrom_append_cons cx start hs hnone hx]
  · have hnone : ∀ x ∈ front, ¬ x.Stands (c :: r) := fun x hx hstands => hfront ⟨x, hx, hstands⟩
    obtain ⟨hat, hpass⟩ := dispatchFrom_append cx start hs hnone cut (f :: es)
    have hpass' := (dispatchFrom_append cx start hs hnone cut es).2
    have hf : ¬ f.Stands (c :: r) := fun hf => hnone e he (h.stands hf)
    have hstep := (dispatchFrom_of_not_stands cx start
      (s := { s with input := s.input.fetched (lookahead front (c :: r)) }) hat hf).2
    rw [hpass, hpass', hstep, Option.or_assoc, h.noted_or he (hnone e he)]
    dsimp only
    rw [Input.fetched_fetched, Nat.max_eq_left (h.lookahead_le he (hnone e he))]

/-- **Sigils apart.** The entry that stands there runs, whatever is in front of it. -/
theorem dispatchFrom_of_apart {table : List Entry} {e : Entry} (hs : s.input.At ⟨P, [c], r⟩)
    (hapart : table.Pairwise Entry.Apart) (he : e ∈ table) (hstands : e.Stands (c :: r))
    (cut : CutShort) : dispatchFrom cx start c cut table s = e.ran cx s := by
  obtain ⟨front, x, es, rfl, hnone, hx⟩ := exists_first_stands ⟨e, he, hstands⟩
  obtain ⟨-, hes, hfront⟩ := List.pairwise_append.1 hapart
  -- a second sigil cannot stand there, in front or behind
  obtain rfl : e = x := by
    rcases List.mem_append.1 he with he | he
    · exact absurd hstands (hnone e he)
    · rcases List.mem_cons.1 he with rfl | he
      · rfl
      · exact absurd hstands (((List.pairwise_cons.1 hes).1 e he).not_stands hx)
  have hlook : lookahead front (c :: r) ≤ e.lookahead (c :: r) :=
    lookahead_le_iff.2 fun x hxf => (hfront x hxf e (List.mem_cons_self ..)).symm.lookahead_le hx
  rw [dispatchFrom_append_cons cx start hs hnone hx, Entry.ran_fetched cx hs hx hlook]

end Tables

theorem lookahead_perm {table table' : List Entry} (h : table.Perm table') (text : List Char) :
    lookahead table text = lookahead table' text := by
  have hle : ∀ {l l' : List Entry}, l.Perm l' → lookahead l text ≤ lookahead l' text := fun h =>
    lookahead_le_iff.2 fun e he => lookahead_le_iff.1 (Nat.le_refl _) e (h.mem_iff.1 he)
  exact Nat.le_antisymm (hle h) (hle h.symm)

theorem isSome_noted_perm {table table' : List Entry} (h : table.Perm table') (text : List Char)
    (stop : Nat) : (noted table text stop).isSome = (noted table' text stop).isSome := by
  rw [Bool.eq_iff_iff, isSome_noted_iff, isSome_noted_iff]
  simp only [h.mem_iff]

/-! ## Tables without an entry, and in another order -/

theorem dispatch_apply (cx : Context) (table : List Entry) (c : Char) (s : RunState) :
    dispatch cx table c s = dispatchFrom cx (s.input.behind c) c none table s := by
  rw [dispatch, Run.bind_apply]
  rfl

theorem interchanged_drop (cx : Context) {front es : List Entry} {e f : Entry} (he : e ∈ front)
    (h : e.Shadows f) : Interchanged cx Eq (front ++ f :: es) (front ++ es) := by
  intro c s P r hs
  rw [dispatch_apply, dispatch_apply, dispatchFrom_drop cx (s.input.behind c) hs he h]
  exact .same _

theorem interchanged_eraseIdx (cx : Context) {table : List Entry} {i j : Nat} {e f : Entry}
    (hij : i < j) (hi : table[i]? = some e) (hj : table[j]? = some f) (h : e.Shadows f) :
    Interchanged cx Eq table (table.eraseIdx j) := by
  have he : e ∈ table.take j := by
    rw [← List.getElem?_take_of_lt hij] at hi
    exact List.mem_of_getElem? hi
  have htable : table = table.take j ++ f :: table.drop (j + 1) := by
    obtain ⟨hlt, rfl⟩ := List.getElem?_eq_some_iff.1 hj
    rw [← List.drop_eq_getElem_cons hlt, List.take_append_drop]
  have hdrop : Interchanged cx Eq (table.take j ++ f :: table.drop (j + 1))
      (table.take j ++ table.drop (j + 1)) := interchanged_drop cx he h
  rwa [← htable, ← List.eraseIdx_eq_take_drop_succ] at hdrop

/-- Complaints that the text ends inside a sigil of the table, which differ in the sigil that they
name. -/
def NamesOther (table : List Entry) (f g : Failure) : Prop :=
  ∃ e ∈ table, ∃ e' ∈ table, f.fault = .sigilCutShort e.sigil ∧
    g = { f with fault := .sigilCutShort e'.sigil }

theorem interchanged_perm (cx : Context) {table table' : List Entry} (h : table.Perm table')
    (hapart : table.Pairwise Entry.Apart) : Interchanged cx (NamesOther table) table table' := by
  intro c s P r hs
  rw [dispatch_apply, dispatch_apply]
  by_cases hstands : ∃ e ∈ table, e.Stands (c :: r)
  · obtain ⟨e, he, hstands⟩ := hstands
    have hapart' : table'.Pairwise Entry.Apart := hapart.perm h Entry.Apart.symm
    rw [dispatchFrom_of_apart cx _ hs hapart he hstands,
      dispatchFrom_of_apart cx _ hs hapart' (h.mem_iff.1 he) hstands]
    exact .same _
  · have hnone : ∀ e ∈ table, ¬ e.Stands (c :: r) := fun e he hx => hstands ⟨e, he, hx⟩
    have hnone' : ∀ e ∈ table', ¬ e.Stands (c :: r) := fun e he => hnone e (h.mem_iff.2 he)
    have hpass := (dispatchFrom_append cx (s.input.behind c) hs hnone none []).2
    have hpass' := (dispatchFrom_append cx (s.input.behind c) hs hnone' none []).2
    have hsome := isSome_noted_perm h (c :: r) (byteLength (P ++ c :: r))
    rw [List.append_nil, Option.none_or] at hpass hpass'
    -- both tables have looked equally far; they may have noted different sigils
    rw [hpass, hpass', lookahead_perm h]
    rcases hx : noted table (c :: r) (byteLength (P ++ c :: r)) with _ | x <;>
      rcases hy : noted table' (c :: r) (byteLength (P ++ c :: r)) with _ | y <;>
      rw [hx, hy] at hsome
    · exact .same _
    · cases hsome
    · cases hsome
    · obtain ⟨e, he, rfl⟩ := exists_of_noted hx
      obtain ⟨e', he', rfl⟩ := exists_of_noted hy
      exact .failed _ ⟨e, he, e', h.mem_iff.2 he', rfl, rfl⟩

/-! ## Documents -/

namespace Processor

/-- **Shadowed entries are dead.**  Without an entry whose sigil starts with the sigil of an earlier
one, every document makes the same run: it leaves the same input, macros and output, or the same
failure. -/
theorem processText_without_shadowed (p : Processor) (hb : ∀ e ∈ p.table, e.BuiltIn) {i j : Nat}
    {e f : Entry} (hij : i < j) (hi : p.table[i]? = some e) (hj : p.table[j]? = some f)
    (h : e.Shadows f) (text : String) :
    let q : Processor := { p with table := p.table.eraseIdx j }
    (∀ name sink, q.process (.ofText name text) sink = p.process (.ofText name text) sink) ∧
    (q.processText text).1 = (p.processText text).1 ∧
    (q.processText text).2.registry = (p.processText text).2.registry := by
  intro q
  have hrun : ∀ name sink,
      q.process (.ofText name text) sink = p.process (.ofText name text) sink := fun name sink =>
    ((interchanged_eraseIdx p.context hij hi hj h).process hb name text sink).eq.symm
  refine ⟨hrun, ?_, ?_⟩
  · rw [processText_eq, processText_eq, hrun]
  · rw [processText_eq, processText_eq, hrun]

/-- A longer sigil behind a built-in one neither takes a text away from it nor is named where the
text ends inside both. -/
theorem processText_without_shadowed_standard :
    let e : Entry := ⟨'#', ['e', ':'], Handler.renderEvaluated.directive⟩
    let f : Entry := ⟨'#', ['e', ':', '!'], Handler.printExpanded.directive⟩
    let p : Processor := { standard with table := standardTable ++ [f] }
    (p.table[2]? = some e ∧ p.table[4]? = some f ∧ e.Shadows f) ∧
      (p.processText "#e:!(a B)").1 = .ok "!(a B)" ∧
      (p.processText "ä\n#e").1 =
        .error (.located (.sigilCutShort "#e:") ⟨textName, "#e"⟩ ⟨0, 2⟩) := by
  intro e f p
  have hf : f.BuiltIn := ⟨.printExpanded, rfl⟩
  have hb : ∀ e ∈ p.table, e.BuiltIn :=
    List.forall_mem_append.2
      ⟨fun _ => builtIn_of_mem_standardTable, List.forall_mem_singleton.2 hf⟩
  have hshadows : e.Shadows f := by decide
  have h := processText_without_shadowed p hb (by decide : 2 < 4) rfl rfl hshadows
  have hok : ({ p with table := p.table.eraseIdx 4 }.processText "#e:!(a B)").1 =
      .ok "!(a B)" := processText_eq_of_within Prod.fst 7 (by decide +kernel)
  have herr : ({ p with table := p.table.eraseIdx 4 }.processText "ä\n#e").1 =
      .error (.located (.sigilCutShort "#e:") ⟨textName, "#e"⟩ ⟨0, 2⟩) :=
    processText_eq_of_within Prod.fst 3 (by decide +kernel)
  exact ⟨⟨rfl, rfl, hshadows⟩, (h _).2.1.symm.trans hok, (h _).2.1.symm.trans herr⟩

/-- **The order of sigils apart does not matter.**  Where no sigil of the table starts with another,
every order of the entries leaves the same macros and the same text or failure.  Only a failure
because the text ends inside a sigil may name another sigil of the table; its kind, source and span
are the same. -/
theorem processText_reordered (p : Processor) (hb : ∀ e ∈ p.table, e.BuiltIn)
    (hapart : p.table.Pairwise Entry.Apart) {table : List Entry} (h : p.table.Perm table)
    (text : String) :
    let q : Processor := { p with table }
    (q.processText text).2.registry = (p.processText text).2.registry ∧
    ((q.processText text).1 = (p.processText text).1 ∨
      ∃ f, ∃ e ∈ p.table, ∃ e' ∈ p.table, f.fault = .sigilCutShort e.sigil ∧
        (p.processText text).1 = .error f ∧
        (q.processText text).1 = .error { f with fault := .sigilCutShort e'.sigil }) := by
  intro q
  have hinter := interchanged_perm p.context h hapart
  have hagree := (hinter.process hb textName text (.text "")).outcome
  rw [processText_eq, processText_eq]
  dsimp only
  generalize outcome (p.process (.ofText textName text) (.text "")) = x at hagree
  generalize outcome (q.process (.ofText textName text) (.text "")) = y at hagree
  cases hagree with
  | same x => exact ⟨rfl, .inl rfl⟩
  | failed registry hnames =>
    obtain ⟨e, he, e', he', hf, rfl⟩ := hnames
    exact ⟨rfl, .inr ⟨_, e, he, e', he', hf, rfl, rfl⟩⟩

/-- The built-in sigils the other way round do the same, but name another one where the text ends
inside all of them. -/
theorem processText_reordered_standard :
    let q : Processor := { standard with table := standardTable.reverse }
    standardTable.Pairwise Entry.Apart ∧
      (q.processText "ä #c:(b C)").1 = .ok "ä b C" ∧
      (standard.processText "ä #").1 =
        .error (.located (.sigilCutShort "#.") ⟨textName, "ä #"⟩ ⟨3, 4⟩) ∧
      (q.processText "ä #").1 =
        .error (.located (.sigilCutShort "#c:") ⟨textName, "ä #"⟩ ⟨3, 4⟩) := by
  intro q
  have hb : ∀ e ∈ standardTable, e.BuiltIn := fun _ => builtIn_of_mem_standardTable
  have hapart : standardTable.Pairwise Entry.Apart := by decide
  have hok : (standard.processText "ä #c:(b C)").1 = .ok "ä b C" :=
    processText_eq_of_within Prod.fst 4 (by decide +kernel)
  refine ⟨hapart, ?_, processText_eq_of_within Prod.fst 3 (by decide +kernel),
    processText_eq_of_within Prod.fst 3 (by decide +kernel)⟩
  rcases (processText_reordered standard hb hapart (List.reverse_perm _).symm "ä #c:(b C)").2 with
    h | ⟨f, -, -, -, -, -, hf, -⟩
  · exact h.trans hok
  · cases hok.symm.trans hf

end Processor

end Sigil
