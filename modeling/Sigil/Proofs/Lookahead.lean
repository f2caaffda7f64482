import Sigil.Proofs.Failing

/-!
# Looking ahead

A try at a sigil reads ahead and gives back what it has read, so all that is left of a try that
fails is that more lines may have been pulled.  This is what the input comes to exactly, its window
and offsets included:

1. `Input.fetched n` has `n` characters ready.  To fetch twice is to fetch the larger number at once
   (`Input.fetched_fetched`).
2. A try asks for `looked` characters.  If it fails, these are fetched (`eq_fetched_of_matchRest`),
   and whether some of them were fetched before does not show (`matchRest_fetched`).
3. A table passes over the entries in front of the one that stands there (`dispatchFrom_append`).
   What is left of them is how far the farthest of them has looked (`lookahead`) and which one was
   cut short first (`noted`).
-/

namespace Sigil

open Text (Line)
open Input (byteLength)

/-! ## Fetching -/

namespace Input

/-- The input after the line `line` was pulled behind the ready characters, before `rest`. -/
def extended (i : Input) (line : List Char) (rest : List Line) : Input :=
  { i.refill line rest with ready := i.ready ++ line }

/-- The input with `n` characters ready, or with as many as can be read. -/
def fetched (n : Nat) (i : Input) : Input :=
  if n ≤ i.ready.length then i
  else
    match _h : i.lines with
    | .text line :: rest => (i.extended line rest).fetched n
    | _ => i
termination_by i.lines.length
decreasing_by
  rw [_h]
  exact Nat.lt_succ_self rest.length

variable {i j : Input} {c : Char}

theorem fetched_of_le {n : Nat} (h : n ≤ i.ready.length) : i.fetched n = i := by
  rw [fetched, if_pos h]

theorem fetched_zero (i : Input) : i.fetched 0 = i := fetched_of_le (Nat.zero_le _)

theorem fetched_of_line {n : Nat} {line : List Char} {rest : List Line} (h : i.ready.length < n)
    (hl : i.lines = .text line :: rest) : i.fetched n = (i.extended line rest).fetched n := by
  rw [fetched, if_neg (Nat.not_le.2 h)]
  split
  · next line' rest' hl' =>
    cases hl.symm.trans hl'
    rfl
  · next hne => exact absurd hl (hne line rest)

/-- Nothing can be fetched where no line can be pulled. -/
theorem fetched_of_no_line (n : Nat) (h : ∀ line rest, i.lines ≠ .text line :: rest) :
    i.fetched n = i := by
  rw [fetched]
  split
  · rfl
  · split
    · next line rest hl => exact absurd hl (h line rest)
    · rfl

/-- A character that is given back is one more that is ready. -/
theorem fetched_unread (n : Nat) (i : Input) (c : Char) :
    (i.unread c).fetched (n + 1) = (i.fetched n).unread c := by
  fun_induction fetched n i with
  | case1 i h => exact fetched_of_le (Nat.succ_le_succ h)
  | case2 i h line rest hl ih =>
    have hlt : (i.unread c).ready.length < n + 1 := Nat.succ_lt_succ (Nat.not_le.1 h)
    rw [fetched_of_line hlt hl]
    exact ih
  | case3 i h hne => exact fetched_of_no_line (n + 1) hne

/-- **Fetching twice** is fetching the larger number at once. -/
theorem fetched_fetched (m n : Nat) (i : Input) :
    (i.fetched m).fetched n = i.fetched (max m n) := by
  fun_induction fetched m i with
  | case1 i h =>
    rcases Nat.le_total n m with hle | hle
    · rw [Nat.max_eq_left hle, fetched_of_le h, fetched_of_le (Nat.le_trans hle h)]
    · rw [Nat.max_eq_right hle]
  | case2 i h line rest hl ih =>
    have hlt : i.ready.length < max m n := Nat.lt_of_lt_of_le (Nat.not_le.1 h) (Nat.le_max_left m n)
    rw [ih, fetched_of_line hlt hl]
  | case3 i h hne => rw [fetched_of_no_line n hne, fetched_of_no_line (max m n) hne]

/-! ## Reading what was fetched -/

theorem next_unread (h : c.utf8Size ≤ i.offset) : (i.unread c).next = (.ok (some c), i) := by
  have hoffset : i.offset - c.utf8Size + c.utf8Size = i.offset := Nat.sub_add_cancel h
  rw [next_of_ready (i := i.unread c) rfl]
  simp only [unread, hoffset]

/-- To read a character and to give it back is to fetch it. -/
theorem unread_of_next (hl : i.Legible) (h : i.next = (.ok (some c), j)) :
    j.unread c = i.fetched 1 := by
  rcases hr : i.ready with _ | ⟨d, r⟩
  · rcases hlines : i.lines with _ | ⟨line, rest⟩
    · rw [next_of_end hr hlines] at h
      cases h
    · obtain ⟨cs, rfl, hcs⟩ := hl line (hlines ▸ List.mem_cons_self ..)
      obtain ⟨d, ds, rfl⟩ := List.exists_cons_of_ne_nil hcs
      have hlt : i.ready.length < 1 := by simp [hr]
      have hextended : i.extended (d :: ds) rest = i.refill (d :: ds) rest := by
        rw [extended, hr, List.nil_append]
        rfl
      rw [next_of_line hr hlines] at h
      cases h
      rw [fetched_of_line hlt hlines, hextended,
        fetched_of_le (Nat.succ_le_succ (Nat.zero_le ds.length))]
      simp only [pop, refill, unread, Nat.add_sub_cancel]
  · rw [next_of_ready hr] at h
    cases h
    have hle : 1 ≤ i.ready.length := by simp [hr]
    rw [fetched_of_le hle]
    simp only [unread, Nat.add_sub_cancel, ← hr]

/-- What is fetched begins with the next character. -/
theorem fetched_succ (hl : i.Legible) (h : i.next = (.ok (some c), j)) (n : Nat) :
    i.fetched (n + 1) = (j.fetched n).unread c := by
  have hmax : max 1 (n + 1) = n + 1 := Nat.max_eq_right (Nat.le_add_left 1 n)
  rw [← fetched_unread, unread_of_next hl h, fetched_fetched, hmax]

theorem offset_fetched (n : Nat) (i : Input) : (i.fetched n).offset = i.offset := by
  fun_induction fetched n i with
  | case1 i h => rfl
  | case2 i h line rest hl ih => exact ih
  | case3 i h hne => rfl

theorem next_fetched (hl : i.Legible) (h : i.next = (.ok (some c), j)) (n : Nat) :
    (i.fetched (n + 1)).next = (.ok (some c), j.fetched n) := by
  rw [fetched_succ hl h]
  refine next_unread ?_
  rw [offset_fetched]
  exact utf8Size_le_of_next h

theorem fetched_of_remaining (hl : i.Legible) (hr : i.remaining = []) (n : Nat) :
    i.fetched n = i := by
  refine fetched_of_no_line n fun line rest hlines => ?_
  rw [(ready_of_remaining hl hr).2] at hlines
  cases hlines

end Input

/-! ## One try -/

/-- The number of characters that a try at `want` asks for where the text `r` is. -/
def looked : List Char → List Char → Nat
  | [], _ => 0
  | _ :: _, [] => 1
  | w :: want, c :: r => if c = w then looked want r + 1 else 1

theorem looked_cons_self (c : Char) (want r : List Char) :
    looked (c :: want) (c :: r) = looked want r + 1 := by rw [looked, if_pos rfl]

theorem looked_of_ne {w c : Char} (h : c ≠ w) (want r : List Char) :
    looked (w :: want) (c :: r) = 1 := by rw [looked, if_neg h]

/-- Where a text does not stand, a longer one is not looked for any farther. -/
theorem looked_eq_of_not_stands {p q r : List Char} (hpq : p <+: q) (hp : ¬ p <+: r) :
    looked p r = looked q r := by
  induction p generalizing q r with
  | nil => exact absurd List.nil_prefix hp
  | cons w p ih =>
    obtain ⟨q, rfl⟩ := hpq
    rw [List.cons_append]
    cases r with
    | nil => rfl
    | cons c r =>
      by_cases hc : c = w
      · subst hc
        rw [List.prefix_cons_inj] at hp
        rw [looked_cons_self, looked_cons_self, ih (List.prefix_append p q) hp]
      · rw [looked_of_ne hc, looked_of_ne hc]

/-- Where a text stands, one that does not go on from it is not looked for any farther. -/
theorem looked_le_of_stands {p q r : List Char} (hp : p <+: r) (hpq : ¬ p <+: q) :
    looked q r ≤ looked p r := by
  induction p generalizing q r with
  | nil => exact absurd List.nil_prefix hpq
  | cons w p ih =>
    obtain ⟨r, rfl⟩ := hp
    rw [List.cons_append, looked_cons_self]
    cases q with
    | nil => exact Nat.zero_le _
    | cons v q =>
      by_cases hv : w = v
      · subst hv
        rw [List.prefix_cons_inj] at hpq
        rw [looked_cons_self]
        exact Nat.succ_le_succ (ih (List.prefix_append p r) hpq)
      · rw [looked_of_ne hv]
        exact Nat.le_add_left 1 _

/-- **A try that fails** leaves what it has looked at. -/
theorem eq_fetched_of_matchRest {want : List Char} {i j : Input} {m : Match} (hl : i.Legible)
    (h : matchRest want i = (.ok m, j)) (hm : m ≠ .full) :
    j = i.fetched (looked want i.remaining) := by
  induction want generalizing i j with
  | nil =>
    cases h
    exact absurd rfl hm
  | cons w want ih =>
    have hn := Input.reads_next hl
    rw [matchRest] at h
    rcases hi : i.next with ⟨f | _ | c, i'⟩
    · exact (hi ▸ hn).ne_error.elim
    · obtain ⟨hr, -, -⟩ := (hi ▸ hn).of_none
      obtain ⟨hready, hlines⟩ := ready_of_remaining hl hr
      rw [Input.next_of_end hready hlines] at h
      cases h
      rw [Input.fetched_of_remaining hl hr]
    · obtain ⟨hr, hl'⟩ := (hi ▸ hn).of_some
      rw [hi] at h
      rw [hr]
      by_cases hc : c = w
      · subst hc
        rw [looked_cons_self, Input.fetched_succ hl hi]
        simp only [↓reduceIte] at h
        rcases hx : matchRest want i' with ⟨f | m', k⟩
        · rw [hx] at h
          cases h
        · rw [hx] at h
          cases m' with
          | full =>
            cases h
            exact absurd rfl hm
          | differs =>
            cases h
            rw [← ih hl' hx]
          | cutShort stop =>
            cases h
            rw [← ih hl' hx]
      · rw [looked_of_ne hc, Input.fetched_succ hl hi, Input.fetched_zero]
        simp only [hc, ↓reduceIte] at h
        cases h
        rfl

/-- **Trying again.** A try does not see that some of what it asks for was fetched before. -/
theorem matchRest_fetched {want : List Char} {i : Input} {n : Nat} (hl : i.Legible)
    (hn : n ≤ looked want i.remaining) : matchRest want (i.fetched n) = matchRest want i := by
  induction want generalizing i n with
  | nil => rw [Nat.le_zero.1 hn, Input.fetched_zero]
  | cons w want ih =>
    have hnext := Input.reads_next hl
    rcases hi : i.next with ⟨f | _ | c, j⟩
    · exact (hi ▸ hnext).ne_error.elim
    · rw [Input.fetched_of_remaining hl (hi ▸ hnext).of_none.1]
    · obtain ⟨hr, hl'⟩ := (hi ▸ hnext).of_some
      cases n with
      | zero => rw [Input.fetched_zero]
      | succ n =>
        rw [matchRest, matchRest, Input.next_fetched hl hi, hi]
        rw [hr] at hn
        by_cases hc : c = w
        · subst hc
          rw [looked_cons_self] at hn
          dsimp only
          rw [if_pos rfl, if_pos rfl, ih hl' (Nat.le_of_succ_le_succ hn)]
        · rw [looked_of_ne hc] at hn
          rw [Nat.le_zero.1 (Nat.le_of_succ_le_succ hn), Input.fetched_zero]

/-! ## The table -/

/-- The number of characters behind the first one that a try at the entry asks for. -/
def Entry.lookahead (e : Entry) (text : List Char) : Nat := looked e.sigil.toList text - 1

/-- The number of characters behind the first one that tries at all entries ask for. -/
def lookahead : List Entry → List Char → Nat
  | [], _ => 0
  | e :: es, text => max (e.lookahead text) (lookahead es text)

theorem lookahead_le_iff {table : List Entry} {text : List Char} {n : Nat} :
    lookahead table text ≤ n ↔ ∀ e ∈ table, e.lookahead text ≤ n := by
  induction table with
  | nil => simp [lookahead]
  | cons e es ih => rw [lookahead, Nat.max_le, ih, List.forall_mem_cons]

/-- What is noted of a try: the sigil, if the text ends inside it, and the offset of that end. -/
def Entry.noted (e : Entry) (text : List Char) (stop : Nat) : CutShort :=
  if e.IsCut text then some (e.sigil, stop) else none

/-- What is noted of tries at all entries: the first sigil inside which the text ends. -/
def noted (table : List Entry) (text : List Char) (stop : Nat) : CutShort :=
  table.findSome? (·.noted text stop)

theorem noted_cons (e : Entry) (es : List Entry) (text : List Char) (stop : Nat) :
    noted (e :: es) text stop = (e.noted text stop).or (noted es text stop) := by
  rw [noted, List.findSome?_cons]
  cases e.noted text stop <;> rfl

namespace Entry

variable {e : Entry} {c : Char} {r : List Char}

theorem lookahead_of_first (h : e.first = c) (r : List Char) :
    e.lookahead (c :: r) = looked e.rest r := by
  rw [lookahead, toList_sigil, h, looked_cons_self, Nat.add_sub_cancel]

theorem lookahead_of_first_ne (h : e.first ≠ c) (r : List Char) : e.lookahead (c :: r) = 0 := by
  rw [lookahead, toList_sigil, looked_of_ne (Ne.symm h)]

theorem Stands.first (h : e.Stands (c :: r)) : e.first = c := by
  rw [Stands, toList_sigil] at h
  exact (List.cons_prefix_cons.1 h).1

theorem IsCut.first (h : e.IsCut (c :: r)) : e.first = c := by
  rw [IsCut, toList_sigil] at h
  exact (List.cons_prefix_cons.1 h.1).1.symm

/-- What becomes of a run in which the sigil is read and its directive runs. -/
def ran (cx : Context) (e : Entry) (s : RunState) : Except Failure Bool × RunState :=
  let t : RunState := { s with input := (matchRest e.rest s.input).2 }
  ((e.directive.run cx e.sigil t).1.map fun _ => true, (e.directive.run cx e.sigil t).2)

end Entry

section Passing

variable (cx : Context) (start : Nat) {c : Char} {P r : List Char} {s : RunState}

/-- **One entry** whose sigil does not stand there is passed over. -/
theorem dispatchFrom_of_not_stands {e : Entry} (hs : s.input.At ⟨P, [c], r⟩)
    (he : ¬ e.Stands (c :: r)) :
    (s.input.fetched (e.lookahead (c :: r))).At ⟨P, [c], r⟩ ∧
      ∀ cut es, dispatchFrom cx start c cut (e :: es) s =
        dispatchFrom cx start c (cut.or (e.noted (c :: r) (byteLength (P ++ c :: r)))) es
          { s with input := s.input.fetched (e.lookahead (c :: r)) } := by
  have hr : s.input.remaining = r := hs.remaining
  by_cases hc : e.first = c
  · have htried := triedAt_matchRest hs hc
    generalize hx : matchRest e.rest s.input = x at htried
    rw [Entry.lookahead_of_first hc]
    cases htried with
    | full hfull hj => exact absurd ⟨_, hfull.symm⟩ he
    | cutShort hcut hj hlines =>
      have heq := eq_fetched_of_matchRest hs.legible hx (by simp)
      rw [hr] at heq
      rw [heq] at hj hx
      refine ⟨hj, fun cut es => ?_⟩
      rw [dispatchFrom_cons, if_pos hc, hx, Entry.noted, if_pos hcut]
    | differs hstands hcut hj hlines =>
      have heq := eq_fetched_of_matchRest hs.legible hx (by simp)
      rw [hr] at heq
      rw [heq] at hj hx
      refine ⟨hj, fun cut es => ?_⟩
      rw [dispatchFrom_cons, if_pos hc, hx, Entry.noted, if_neg hcut, Option.or_none]
  · rw [Entry.lookahead_of_first_ne hc, Input.fetched_zero]
    refine ⟨hs, fun cut es => ?_⟩
    rw [dispatchFrom_cons, if_neg hc, Entry.noted, if_neg fun hcut => hc hcut.first, Option.or_none]

/-- **Passing.** All entries in front whose sigils do not stand there are passed over. -/
theorem dispatchFrom_append {front : List Entry} (hs : s.input.At ⟨P, [c], r⟩)
    (hfront : ∀ e ∈ front, ¬ e.Stands (c :: r)) (cut : CutShort) (es : List Entry) :
    (s.input.fetched (lookahead front (c :: r))).At ⟨P, [c], r⟩ ∧
      dispatchFrom cx start c cut (front ++ es) s =
        dispatchFrom cx start c (cut.or (noted front (c :: r) (byteLength (P ++ c :: r)))) es
          { s with input := s.input.fetched (lookahead front (c :: r)) } := by
  induction front generalizing cut s with
  | nil =>
    rw [lookahead, Input.fetched_zero, noted, List.findSome?_nil, Option.or_none]
    exact ⟨hs, rfl⟩
  | cons e front ih =>
    obtain ⟨he, hfront⟩ := List.forall_mem_cons.1 hfront
    obtain ⟨hat, hpass⟩ := dispatchFrom_of_not_stands cx start hs he
    obtain ⟨hat', hpass'⟩ := ih (s := { s with input := s.input.fetched (e.lookahead (c :: r)) })
      hat hfront (cut.or (e.noted (c :: r) (byteLength (P ++ c :: r))))
    dsimp only at hat' hpass'
    rw [Input.fetched_fetched] at hat' hpass'
    rw [lookahead, noted_cons, ← Option.or_assoc]
    exact ⟨hat', (hpass cut (front ++ es)).trans hpass'⟩

/-- **The entry that stands there** runs, whatever is behind it. -/
theorem dispatchFrom_of_stands {e : Entry} (hs : s.input.At ⟨P, [c], r⟩) (he : e.Stands (c :: r))
    (cut : CutShort) (es : List Entry) :
    dispatchFrom cx start c cut (e :: es) s = e.ran cx s := by
  have htried := triedAt_matchRest hs he.first
  rw [dispatchFrom_cons, if_pos he.first, Entry.ran]
  generalize matchRest e.rest s.input = x at htried
  cases htried with
  | full hr hj => rfl
  | cutShort hcut hj hlines => exact absurd he hcut.not_stands
  | differs hstands hcut hj hlines => exact absurd he hstands

/-- The first entry that stands there runs, from where those in front of it have left the input. -/
theorem dispatchFrom_append_cons {front : List Entry} {e : Entry} (hs : s.input.At ⟨P, [c], r⟩)
    (hfront : ∀ e ∈ front, ¬ e.Stands (c :: r)) (he : e.Stands (c :: r)) (cut : CutShort)
    (es : List Entry) :
    dispatchFrom cx start c cut (front ++ e :: es) s =
      e.ran cx { s with input := s.input.fetched (lookahead front (c :: r)) } := by
  obtain ⟨hat, hpass⟩ := dispatchFrom_append cx start hs hfront cut (e :: es)
  exact hpass.trans (dispatchFrom_of_stands cx start hat he _ es)

/-- What was fetched within the sigil before it is read does not show. -/
theorem Entry.ran_fetched {e : Entry} {n : Nat} (hs : s.input.At ⟨P, [c], r⟩)
    (he : e.Stands (c :: r)) (hn : n ≤ e.lookahead (c :: r)) :
    e.ran cx { s with input := s.input.fetched n } = e.ran cx s := by
  have hr : s.input.remaining = r := hs.remaining
  rw [lookahead_of_first he.first, ← hr] at hn
  rw [ran, ran]
  dsimp only
  rw [matchRest_fetched hs.legible hn]

end Passing

end Sigil
