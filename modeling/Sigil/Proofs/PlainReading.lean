import Sigil.Datum.Reading
import Sigil.Proofs.Remaining

/-!
# Reading from a plain text

The reader of a datum, told over a text and what is left of it instead of an input.  `Plain.read`
says which expression a text starts with, or what is wrong with it; offsets, windows and lines are
gone.  `agrees_read`: on an input whose lines can all be read, `read` does what `Plain.read` says of
the remaining text.

1. Blanks and comments, the rest of an atom and the rest of a string are simple recursions.
2. A datum and the items of a list call each other; the recursion goes down in what is left
   (`Plain.Left`), and `Plain.datum` and `Plain.items` are the same without the bound.
3. Each step of the reader agrees with its plain counterpart (`Agrees`).
-/

namespace Sigil.Datum

open Text (Casing isBlank)

namespace Plain

/-! ## Blanks, atoms, strings -/

/-- Drops blanks and comments; `inComment` says that a comment is running. -/
def skipFrom (inComment : Bool) : List Char → List Char
  | [] => []
  | c :: r =>
    if inComment then skipFrom (c != '\n') r
    else if c = ';' then skipFrom true r
    else if isBlank c then skipFrom false r
    else c :: r

/-- Drops blanks and comments. -/
def skip : List Char → List Char := skipFrom false

theorem skipFrom_suffix (b : Bool) (r : List Char) : skipFrom b r <:+ r := by
  induction r generalizing b with
  | nil => exact List.suffix_refl _
  | cons c r ih =>
    rw [skipFrom]
    split_ifs
    · exact (ih _).trans (List.suffix_cons c r)
    · exact (ih _).trans (List.suffix_cons c r)
    · exact (ih _).trans (List.suffix_cons c r)
    · exact List.suffix_refl _

theorem skip_suffix (r : List Char) : skip r <:+ r := skipFrom_suffix false r

/-- What is behind the first significant character is shorter than the text. -/
theorem length_lt_of_skip {r s : List Char} {c : Char} (h : skip r = c :: s) :
    s.length < r.length := by
  have := (skip_suffix r).length_le
  rw [h] at this
  exact this

theorem suffix_of_skip {r s : List Char} {c : Char} (h : skip r = c :: s) : s <:+ r :=
  (List.suffix_cons c s).trans (h ▸ skip_suffix r)

/-- A result whose text was changed comes from one that was not. -/
theorem map_eq_ok {x : Except Fault (List Char × List Char)} {f : List Char → List Char}
    {cs s : List Char} (h : x.map (Prod.map f id) = .ok (cs, s)) :
    ∃ ds, x = .ok (ds, s) ∧ cs = f ds := by
  rcases x with e | ⟨ds, t⟩
  · cases h
  · cases h
    exact ⟨ds, rfl, rfl⟩

theorem map_eq_error {x : Except Fault (List Char × List Char)} {f : List Char → List Char}
    {e : Fault} (h : x.map (Prod.map f id) = .error e) : x = .error e := by
  rcases x with e' | y
  · cases h
    rfl
  · cases h

/-- The rest of an atom, and what follows it. -/
def atomRest (r : List Char) : List Char × List Char :=
  (r.takeWhile (!isDelimiter ·), r.dropWhile (!isDelimiter ·))

/-- The rest of a string with its closing quote, and what follows it. -/
def stringRest (escaped : Bool) : List Char → Except Fault (List Char × List Char)
  | [] => .error (.unterminatedString escaped)
  | c :: r =>
    if !escaped && c == '"' then .ok ([c], r)
    else (stringRest (!escaped && c == '\\') r).map (Prod.map (c :: ·) id)

theorem stringRest_suffix {b : Bool} {r cs s : List Char} (h : stringRest b r = .ok (cs, s)) :
    s <:+ r := by
  induction r generalizing b cs with
  | nil => cases h
  | cons c r ih =>
    rw [stringRest] at h
    split_ifs at h
    · cases h
      exact List.suffix_cons c _
    · obtain ⟨ds, hr, -⟩ := map_eq_ok h
      exact (ih hr).trans (List.suffix_cons c r)

/-! ## Data -/

/-- What is left of `r`. -/
abbrev Left (r : List Char) := { s : List Char // s.length ≤ r.length }

mutual

/-- The text of the datum that starts with `c`, and what is left of the text behind `c`. -/
def datumIn (c : Char) (r : List Char) : Except Fault (List Char × Left r) :=
  if c = '(' then (itemsIn r).map fun (cs, s) => (c :: cs, s)
  else if c = ')' then .error .strayClose
  else if c = '"' then
    match h : stringRest false r with
    | .error f => .error f
    | .ok (cs, s) => .ok (c :: cs, ⟨s, (stringRest_suffix h).length_le⟩)
  else if c = '\'' then
    match h : skip r with
    | [] => .error .danglingQuote
    | d :: s =>
      have hs := length_lt_of_skip h
      (datumIn d s).map fun (cs, t) => (c :: cs, ⟨t.1, Nat.le_trans t.2 (Nat.le_of_lt hs)⟩)
  else .ok (c :: (atomRest r).1, ⟨(atomRest r).2, length_dropWhile_le _ _⟩)
termination_by 2 * r.length + 1

/-- The items of a list up to its closing parenthesis, a space before each, and what is left. -/
def itemsIn (r : List Char) : Except Fault (List Char × Left r) :=
  match h : skip r with
  | [] => .error .unbalancedList
  | c :: s =>
    have hs := length_lt_of_skip h
    if c = ')' then .ok ([c], ⟨s, Nat.le_of_lt hs⟩)
    else
      match datumIn c s with
      | .error f => .error f
      | .ok (cs, t) =>
        have ht : t.1.length < r.length := Nat.lt_of_le_of_lt t.2 hs
        (itemsIn t.1).map fun (ds, u) =>
          (' ' :: cs ++ ds, ⟨u.1, Nat.le_trans u.2 (Nat.le_of_lt ht)⟩)
termination_by 2 * r.length

end

/-- A result without the bound on what is left. -/
def bare {r : List Char} (x : Except Fault (List Char × Left r)) :
    Except Fault (List Char × List Char) := x.map (Prod.map id Subtype.val)

/-- The text of the datum that starts with `c`, and what is left of the text behind `c`. -/
def datum (c : Char) (r : List Char) : Except Fault (List Char × List Char) := bare (datumIn c r)

/-- The items of a list up to its closing parenthesis, a space before each, and what is left. -/
def items (r : List Char) : Except Fault (List Char × List Char) := bare (itemsIn r)

theorem datum_eq (c : Char) (r : List Char) :
    datum c r =
      if c = '(' then (items r).map (Prod.map (c :: ·) id)
      else if c = ')' then .error .strayClose
      else if c = '"' then (stringRest false r).map (Prod.map (c :: ·) id)
      else if c = '\'' then
        match skip r with
        | [] => .error .danglingQuote
        | d :: s => (datum d s).map (Prod.map (c :: ·) id)
      else .ok (c :: (atomRest r).1, (atomRest r).2) := by
  rw [datum, datumIn]
  split_ifs
  · rw [items]
    rcases itemsIn r with f | ⟨cs, s⟩ <;> rfl
  · rfl
  · split
    · next h => rw [h]; rfl
    · next h =>
      conv_rhs => rw [h]
      rfl
  · split
    · next h => rw [h]; rfl
    · next d s h =>
      conv_rhs => rw [h]
      show _ = (datum d s).map _
      rw [datum]
      rcases datumIn d s with f | ⟨cs, t⟩ <;> rfl
  · rfl

theorem items_eq (r : List Char) :
    items r =
      match skip r with
      | [] => .error .unbalancedList
      | c :: s =>
        if c = ')' then .ok ([c], s)
        else
          match datum c s with
          | .error f => .error f
          | .ok (cs, t) => (items t).map (Prod.map (' ' :: cs ++ ·) id) := by
  rw [items, itemsIn]
  split
  · next h => rw [h]; rfl
  · next c s h =>
    conv_rhs => rw [h]
    show _ = if c = ')' then _ else _
    split_ifs
    · rfl
    · rw [datum]
      rcases datumIn c s with f | ⟨cs, t⟩
      · rfl
      · show bare ((itemsIn t.1).map _) = (items t.1).map _
        rw [items]
        rcases itemsIn t.1 with f | ⟨ds, u⟩ <;> rfl

theorem datum_list (r : List Char) : datum '(' r = (items r).map (Prod.map ('(' :: ·) id) := by
  rw [datum_eq, if_pos rfl]

theorem datum_string (r : List Char) :
    datum '"' r = (stringRest false r).map (Prod.map ('"' :: ·) id) := by
  rw [datum_eq]
  rfl

theorem datum_quote {r s : List Char} {d : Char} (h : skip r = d :: s) :
    datum '\'' r = (datum d s).map (Prod.map ('\'' :: ·) id) := by
  rw [datum_eq, h]
  rfl

theorem datum_atom {c : Char} (r : List Char) (h1 : c ≠ '(') (h2 : c ≠ ')') (h3 : c ≠ '"')
    (h4 : c ≠ '\'') : datum c r = .ok (c :: (atomRest r).1, (atomRest r).2) := by
  rw [datum_eq, if_neg h1, if_neg h2, if_neg h3, if_neg h4]

theorem items_close {r s : List Char} (h : skip r = ')' :: s) : items r = .ok ([')'], s) := by
  rw [items_eq, h]
  rfl

/-- The step through the items of a list at an item. -/
theorem items_cons {r s : List Char} {c : Char} (h : skip r = c :: s) (hc : c ≠ ')') :
    items r =
      match datum c s with
      | .error f => .error f
      | .ok (cs, t) => (items t).map (Prod.map (' ' :: cs ++ ·) id) := by
  rw [items_eq, h]
  exact if_neg hc

/-- Induction along the plain reader: `P` for data and `Q` for the items of lists. -/
theorem datum_items_induct {P : Char → List Char → Prop} {Q : List Char → Prop}
    (list : ∀ r, Q r → P '(' r) (stray : ∀ r, P ')' r) (string : ∀ r, P '"' r)
    (quoteEnd : ∀ r, skip r = [] → P '\'' r)
    (quote : ∀ r d s, skip r = d :: s → P d s → P '\'' r)
    (atom : ∀ c r, c ≠ '(' → c ≠ ')' → c ≠ '"' → c ≠ '\'' → P c r)
    (itemsEnd : ∀ r, skip r = [] → Q r) (close : ∀ r s, skip r = ')' :: s → Q r)
    (itemFails : ∀ r c s f, skip r = c :: s → c ≠ ')' → datum c s = .error f → P c s → Q r)
    (item : ∀ r c s cs t, skip r = c :: s → c ≠ ')' → datum c s = .ok (cs, t) → P c s → Q t →
      Q r) :
    (∀ c r, P c r) ∧ ∀ r, Q r := by
  apply datumIn.mutual_induct P Q
  · exact list
  · exact fun r _ => stray r
  · exact fun r _ _ _ _ => string r
  · exact fun r _ _ _ _ _ => string r
  · exact fun r h _ _ _ => quoteEnd r h
  · exact fun r d s h _ _ _ _ ih => quote r d s h ih
  · exact atom
  · exact itemsEnd
  · exact fun r s h _ => close r s h
  · exact fun r c s h _ hc f hd ih => itemFails r c s f h hc (by rw [datum, hd]; rfl) ih
  · exact fun r c s h _ hc cs t hd _ ih ih' =>
      item r c s cs t.1 h hc (by rw [datum, hd]; rfl) ih ih'

/-- What is left of a text is a suffix of it. -/
theorem datum_items_suffix :
    (∀ c r cs s, datum c r = .ok (cs, s) → s <:+ r) ∧
    (∀ r cs s, items r = .ok (cs, s) → s <:+ r) := by
  apply datum_items_induct (P := fun c r => ∀ cs s, datum c r = .ok (cs, s) → s <:+ r)
    (Q := fun r => ∀ cs s, items r = .ok (cs, s) → s <:+ r)
  · intro r ih cs s h
    rw [datum_list] at h
    obtain ⟨ds, hi, -⟩ := map_eq_ok h
    exact ih ds s hi
  · intro r cs s h
    rw [datum_eq] at h
    cases h
  · intro r cs s h
    rw [datum_string] at h
    obtain ⟨ds, hs, -⟩ := map_eq_ok h
    exact stringRest_suffix hs
  · intro r hr cs s h
    rw [datum_eq, hr] at h
    cases h
  · intro r d t hr ih cs s h
    rw [datum_quote hr] at h
    obtain ⟨ds, hd, -⟩ := map_eq_ok h
    exact (ih ds s hd).trans (suffix_of_skip hr)
  · intro c r h1 h2 h3 h4 cs s h
    rw [datum_atom r h1 h2 h3 h4] at h
    cases h
    exact List.dropWhile_suffix _
  · intro r hr cs s h
    rw [items_eq, hr] at h
    cases h
  · intro r t hr cs s h
    rw [items_close hr] at h
    cases h
    exact suffix_of_skip hr
  · intro r c t f hr hc hd _ cs s h
    rw [items_cons hr hc, hd] at h
    cases h
  · intro r c t cs u hr hc hd ih ih' ds s h
    rw [items_cons hr hc, hd] at h
    obtain ⟨es, hi, -⟩ := map_eq_ok h
    exact (ih' es s hi).trans ((ih cs u hd).trans (suffix_of_skip hr))

/-- The expression that starts with `c`, and what is left of the text behind `c`. -/
def expression (casing : Casing) (c : Char) (r : List Char) : Except Fault (Expr × List Char) :=
  match datum c r with
  | .error f => .error f
  | .ok (cs, s) =>
    match parse? casing (String.ofList cs) with
    | some e => .ok (e, s)
    | none => .error .unreadDatum

/-- Reads one expression from a text. -/
def read (casing : Casing) (r : List Char) : Except Fault (Expr × List Char) :=
  match skip r with
  | [] => .error .missingExpression
  | c :: s => expression casing c s

theorem expression_suffix {casing : Casing} {c : Char} {r s : List Char} {e : Expr}
    (h : expression casing c r = .ok (e, s)) : s <:+ r := by
  unfold expression at h
  rcases hd : datum c r with f | ⟨cs, t⟩
  · rw [hd] at h
    cases h
  · rw [hd] at h
    rcases hp : parse? casing (String.ofList cs) with _ | e'
    · simp only [hp] at h
      cases h
    · simp only [hp] at h
      cases h
      exact datum_items_suffix.1 c r cs s hd

theorem read_suffix {casing : Casing} {r s : List Char} {e : Expr}
    (h : read casing r = .ok (e, s)) : s <:+ r := by
  unfold read at h
  rcases hr : skip r with _ | ⟨c, t⟩
  · rw [hr] at h
    cases h
  · rw [hr] at h
    exact (expression_suffix h).trans (suffix_of_skip hr)

end Plain

/-! ## Agreement -/

open Input (ReadsFrom reads_next)

/-- An outcome of the reader is as the plain reader says: the same value and the same text left, or
the same fault. -/
inductive Agrees {α : Type} : Except Failure α × Input → Except Fault (α × List Char) → Prop
  | ok (a : α) {j : Input} (h : j.Legible) : Agrees (.ok a, j) (.ok (a, j.remaining))
  | error (f : Failure) (j : Input) : Agrees (.error f, j) (.error f.fault)

theorem Agrees.of_ok {α : Type} {a : α} {j : Input} {y : Except Fault (α × List Char)}
    (h : Agrees (.ok a, j) y) : y = .ok (a, j.remaining) ∧ j.Legible := by
  cases h with
  | ok _ hj => exact ⟨rfl, hj⟩

theorem Agrees.of_error {α : Type} {f : Failure} {j : Input} {y : Except Fault (α × List Char)}
    (h : Agrees (.error f, j) y) : y = .error f.fault := by
  cases h
  rfl

theorem Agrees.exists_ok {α : Type} {a : α} {r : List Char} {x : Except Failure α × Input}
    (h : Agrees x (.ok (a, r))) : ∃ j, x = (.ok a, j) ∧ j.Legible ∧ j.remaining = r := by
  cases h with
  | ok _ hj => exact ⟨_, rfl, hj, rfl⟩

theorem Agrees.exists_error {α : Type} {e : Fault} {x : Except Failure α × Input}
    (h : Agrees x (.error e)) : ∃ f j, x = (.error f, j) ∧ f.fault = e := by
  cases h with
  | error f j => exact ⟨f, j, rfl, rfl⟩

theorem Agrees.map {α β : Type} {x : Except Failure α × Input} {y : Except Fault (α × List Char)}
    (h : Agrees x y) (f : α → β) : Agrees (x.1.map f, x.2) (y.map (Prod.map f id)) := by
  cases h with
  | ok a hj => exact .ok (f a) hj
  | error e j => exact .error e j

/-! ### Blanks, atoms, strings -/

theorem reads_significantFrom (b : Bool) {i : Input} (h : i.Legible) :
    ReadsFrom (significantFrom b i) (Plain.skipFrom b i.remaining) := by
  have hn := reads_next h
  fun_induction significantFrom b i with
  | case1 i c j hj _ ih =>
    obtain ⟨hr, hl⟩ := (hj ▸ hn).of_some
    rw [hr, Plain.skipFrom, if_pos rfl]
    exact ih hl (reads_next hl)
  | case2 b i j hb hj _ ih =>
    obtain ⟨hr, hl⟩ := (hj ▸ hn).of_some
    rw [hr, Plain.skipFrom, if_neg hb, if_pos rfl]
    exact ih hl (reads_next hl)
  | case3 b i c j hj _ hb hc hs ih =>
    obtain ⟨hr, hl⟩ := (hj ▸ hn).of_some
    rw [hr, Plain.skipFrom, if_neg hb, if_neg hc, if_pos hs]
    exact ih hl (reads_next hl)
  | case4 b i c j hj _ hb hc hs =>
    obtain ⟨hr, -⟩ := (hj ▸ hn).of_some
    rw [hr, Plain.skipFrom, if_neg hb, if_neg hc, if_neg hs, ← hr, ← hj]
    exact hn
  | case5 b i hne =>
    -- no character was read, so the text is at its end
    rcases hi : i.remaining with _ | ⟨c, r⟩
    · rw [Plain.skipFrom, ← hi]
      exact hn
    · rw [hi] at hn
      exact (hne c i.next.2 (Prod.ext hn.value rfl)).elim

theorem reads_significant {i : Input} (h : i.Legible) :
    ReadsFrom (significant i) (Plain.skip i.remaining) := reads_significantFrom false h

theorem reads_skipBlanks {i : Input} (h : i.Legible) :
    ∃ j : Input, skipBlanks i = (.ok (), j) ∧ j.Legible ∧ j.remaining = Plain.skip i.remaining := by
  have hn := reads_significant h
  unfold skipBlanks
  rcases hs : significant i with ⟨f | _ | c, j⟩
  · exact (hs ▸ hn).ne_error.elim
  · obtain ⟨hr, hl, hj⟩ := (hs ▸ hn).of_none
    exact ⟨j, rfl, hl, by rw [hr, hj]⟩
  · obtain ⟨hr, hl⟩ := (hs ▸ hn).of_some
    exact ⟨j.unread c, rfl, hl.unread c, by rw [hr, Input.remaining_unread]⟩

theorem agrees_atomRest {i : Input} (h : i.Legible) :
    Agrees (atomRest i).1 (.ok (Plain.atomRest i.remaining)) := by
  have hn := reads_next h
  fun_induction atomRest i with
  | case1 i f j hj => exact (hj ▸ hn).ne_error.elim
  | case2 i j hj =>
    obtain ⟨hr, hl, hj'⟩ := (hj ▸ hn).of_none
    have hp : Plain.atomRest [] = ([], j.remaining) := by rw [hj']; rfl
    rw [hr, hp]
    exact .ok [] hl
  | case3 i c j hj _ hc =>
    obtain ⟨hr, hl⟩ := (hj ▸ hn).of_some
    have hp : Plain.atomRest (c :: j.remaining) = ([], (j.unread c).remaining) := by
      simp [Plain.atomRest, hc]
    rw [hr, hp]
    exact .ok [] (hl.unread c)
  | case4 i c j hj _ hc ih =>
    obtain ⟨hr, hl⟩ := (hj ▸ hn).of_some
    have hp : Plain.atomRest (c :: j.remaining) =
        Prod.map (c :: ·) id (Plain.atomRest j.remaining) := by
      simp [Plain.atomRest, hc]
    rw [hr, hp]
    exact (ih hl (reads_next hl)).map (c :: ·)

theorem agrees_stringRest (start : Nat) (b : Bool) {i : Input} (h : i.Legible) :
    Agrees (stringRest start b i).1 (Plain.stringRest b i.remaining) := by
  have hn := reads_next h
  fun_induction stringRest start b i with
  | case1 b i f j hj => exact (hj ▸ hn).ne_error.elim
  | case2 b i j hj =>
    obtain ⟨hr, -⟩ := (hj ▸ hn).of_none
    rw [hr]
    exact .error _ j
  | case3 b i c j hj _ hc =>
    obtain ⟨hr, hl⟩ := (hj ▸ hn).of_some
    rw [hr, Plain.stringRest, if_pos hc]
    exact .ok [c] hl
  | case4 b i c j hj _ hc ih =>
    obtain ⟨hr, hl⟩ := (hj ▸ hn).of_some
    rw [hr, Plain.stringRest, if_neg hc]
    exact (ih hl (reads_next hl)).map (c :: ·)

/-! ### Data -/

/-- One step of the reader, without the bound on the input that is left. -/
theorem datumFrom_eq (start : Nat) (c : Char) (i : Input) :
    (datumFrom start c i).1 =
      if c = '(' then
        ((itemsFrom start (i.behind c) i).1.1.map (c :: ·), (itemsFrom start (i.behind c) i).1.2)
      else if c = ')' then (.error (i.failure .strayClose (i.behind c)), i)
      else if c = '"' then
        ((stringRest (i.behind c) false i).1.1.map (c :: ·), (stringRest (i.behind c) false i).1.2)
      else if c = '\'' then
        match significant i with
        | (.error f, j) => (.error f, j)
        | (.ok none, j) => (.error (j.failure .danglingQuote start), j)
        | (.ok (some d), j) =>
          ((datumFrom start d j).1.1.map (c :: ·), (datumFrom start d j).1.2)
      else ((atomRest i).1.1.map (c :: ·), (atomRest i).1.2) := by
  rw [datumFrom]
  split_ifs
  · rfl
  · rfl
  · rfl
  · split
    · next h => conv_rhs => rw [h]
    · next h => conv_rhs => rw [h]
    · next h =>
      conv_rhs => rw [h]
      rfl
  · rfl

/-- One step through the items of a list, without the bound on the input that is left. -/
theorem itemsFrom_eq (start opened : Nat) (i : Input) :
    (itemsFrom start opened i).1 =
      match significant i with
      | (.error f, j) => (.error f, j)
      | (.ok none, j) => (.error (j.failure .unbalancedList opened), j)
      | (.ok (some c), j) =>
        if c = ')' then (.ok [c], j)
        else
          match (datumFrom start c j).1 with
          | (.error f, k) => (.error f, k)
          | (.ok cs, k) =>
            ((itemsFrom start opened k).1.1.map (' ' :: cs ++ ·),
              (itemsFrom start opened k).1.2) := by
  rw [itemsFrom]
  split
  · next h => conv_rhs => rw [h]
  · next h => conv_rhs => rw [h]
  · next c j h =>
    conv_rhs => rw [h]
    show _ = if c = ')' then _ else _
    split_ifs
    · rfl
    · split
      · next hd => rw [hd]
      · next hd => rw [hd]; rfl

/-- **Cutting out.** The reader cuts out the datum that the plain reader cuts out. -/
theorem agrees_datumFrom_and_itemsFrom (start : Nat) :
    (∀ c i, i.Legible → Agrees (datumFrom start c i).1 (Plain.datum c i.remaining)) ∧
    (∀ opened i, i.Legible →
      Agrees (itemsFrom start opened i).1 (Plain.items i.remaining)) := by
  apply datumFrom.mutual_induct start
    (fun c i => i.Legible → Agrees (datumFrom start c i).1 (Plain.datum c i.remaining))
    (fun opened i => i.Legible → Agrees (itemsFrom start opened i).1 (Plain.items i.remaining))
  · -- a list
    intro i ih h
    rw [datumFrom_eq, Plain.datum_eq, if_pos rfl, if_pos rfl]
    exact (ih h).map _
  · -- a stray closing parenthesis
    intro i h1 h
    rw [datumFrom_eq, Plain.datum_eq]
    simp only [h1, ↓reduceIte]
    exact .error _ i
  · -- a string
    intro i h1 h2 h
    rw [datumFrom_eq, Plain.datum_eq]
    simp only [h1, h2, ↓reduceIte]
    exact (agrees_stringRest _ false h).map _
  · -- a quote before a read failure
    intro i f j hs _ _ _ h
    exact (hs ▸ reads_significant h).ne_error.elim
  · -- a quote at the end of the input
    intro i j hs h1 h2 h3 h
    obtain ⟨hr, -⟩ := (hs ▸ reads_significant h).of_none
    rw [datumFrom_eq, Plain.datum_eq, hs, hr]
    simp only [h1, h2, h3, ↓reduceIte]
    exact .error _ j
  · -- a quote before an expression
    intro i c j hs _ h1 h2 h3 ih h
    obtain ⟨hr, hl⟩ := (hs ▸ reads_significant h).of_some
    rw [datumFrom_eq, Plain.datum_eq, hs, hr]
    simp only [h1, h2, h3, ↓reduceIte]
    exact (ih hl).map _
  · -- an atom
    intro c i h1 h2 h3 h4 h
    rw [datumFrom_eq, Plain.datum_eq]
    simp only [h1, h2, h3, h4, ↓reduceIte]
    exact (agrees_atomRest h).map (c :: ·)
  · -- items before a read failure
    intro opened i f j hs h
    exact (hs ▸ reads_significant h).ne_error.elim
  · -- items at the end of the input
    intro opened i j hs h
    obtain ⟨hr, -⟩ := (hs ▸ reads_significant h).of_none
    rw [itemsFrom_eq, Plain.items_eq, hs, hr]
    exact .error _ j
  · -- the closing parenthesis
    intro opened i j hs _ h
    obtain ⟨hr, hl⟩ := (hs ▸ reads_significant h).of_some
    rw [itemsFrom_eq, Plain.items_eq, hs, hr]
    exact .ok _ hl
  · -- an item that fails
    intro opened i c j hs _ hc f k hk hd ih h
    obtain ⟨hr, hl⟩ := (hs ▸ reads_significant h).of_some
    have hp := (hd ▸ ih hl).of_error
    rw [itemsFrom_eq, Plain.items_eq, hs, hr]
    simp only [hc, ↓reduceIte]
    rw [hd, hp]
    exact .error f k
  · -- an item and those behind it
    intro opened i c j hs _ hc cs k hk hd _ ih ihk h
    obtain ⟨hr, hl⟩ := (hs ▸ reads_significant h).of_some
    obtain ⟨hp, hlk⟩ := (hd ▸ ih hl).of_ok
    rw [itemsFrom_eq, Plain.items_eq, hs, hr]
    simp only [hc, ↓reduceIte]
    rw [hd, hp]
    exact (ihk hlk).map _

theorem agrees_expressionFrom (casing : Casing) (c : Char) {i : Input} (h : i.Legible) :
    Agrees (expressionFrom casing c i).1 (Plain.expression casing c i.remaining) := by
  have hd := (agrees_datumFrom_and_itemsFrom (i.behind c)).1 c i h
  unfold expressionFrom Plain.expression
  rcases hx : datumFrom (i.behind c) c i with ⟨⟨f | cs, k⟩, hk⟩
  · rw [hx] at hd
    rw [hd.of_error]
    exact .error f k
  · rw [hx] at hd
    obtain ⟨hp, hlk⟩ := hd.of_ok
    rw [hp]
    simp only [parse]
    rcases parse? casing (String.ofList cs) with _ | e
    · exact .error _ k
    · exact .ok e hlk

/-- **Reading.** On a legible input the reader does what the plain reader says of the remaining
text. -/
theorem agrees_read (casing : Casing) {i : Input} (h : i.Legible) :
    Agrees (read casing i) (Plain.read casing i.remaining) := by
  have hn := reads_significant h
  unfold read Plain.read
  rcases hs : significant i with ⟨f | _ | c, j⟩
  · exact (hs ▸ hn).ne_error.elim
  · obtain ⟨hr, -⟩ := (hs ▸ hn).of_none
    rw [hr]
    exact .error _ j
  · obtain ⟨hr, hl⟩ := (hs ▸ hn).of_some
    rw [hr]
    exact agrees_expressionFrom casing c hl

end Sigil.Datum
