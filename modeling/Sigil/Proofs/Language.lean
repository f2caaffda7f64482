import Sigil.Proofs.Grammar
import Sigil.Proofs.PlainReading

/-!
# One language

The reader cuts a datum out of the input and rewrites it on the way: comments go, and each item of a
list gets one space.  The grammar reads a text as it stands.  `read_iff_parse`: on texts whose only
blanks are the four separators of the grammar both accept the same texts and give the same
expressions.

1. On such texts blanks, atoms and strings are the same for both (`skip_eq`, `atomRest_eq`,
   `toOption_stringRest`).
2. The text of a datum that was cut out spells an expression, the one the grammar finds in the text
   it was cut from (`datum_spells`).
3. Where no datum can be cut out, the grammar finds no expression (`termOf_of_datum_error`).
-/

namespace Sigil.Datum

open Text (Casing isBlank)

/-! ## Characters -/

/-- A text whose blanks are separators of the grammar. -/
def Spaced (r : List Char) : Prop := ∀ c ∈ r, isBlank c = true → isSpace c = true

theorem Spaced.of_suffix {r s : List Char} (h : Spaced r) (hs : s <:+ r) : Spaced s :=
  fun c hc => h c (hs.mem hc)

theorem Spaced.tail {c : Char} {r : List Char} (h : Spaced (c :: r)) : Spaced r :=
  h.of_suffix (List.suffix_cons c r)

theorem Spaced.of_skip {c : Char} {r s : List Char} (h : Spaced r) (hs : Plain.skip r = c :: s) :
    Spaced (c :: s) := hs ▸ h.of_suffix (Plain.skip_suffix r)

theorem isBlank_of_isSpace {c : Char} (h : isSpace c = true) : isBlank c = true := by
  simp only [isSpace, Bool.or_eq_true, beq_iff_eq] at h
  rcases h with ((rfl | rfl) | rfl) | rfl <;> decide

theorem Spaced.isBlank_eq {c : Char} {r : List Char} (h : Spaced r) (hc : c ∈ r) :
    isBlank c = isSpace c := by
  rw [Bool.eq_iff_iff]
  exact ⟨h c hc, isBlank_of_isSpace⟩

theorem skipFrom_eq (b : Bool) {r : List Char} (h : Spaced r) :
    Plain.skipFrom b r = skipFrom b r := by
  induction r generalizing b with
  | nil => rfl
  | cons c r ih =>
    rw [Plain.skipFrom, skipFrom, h.isBlank_eq (List.mem_cons_self ..), ih _ h.tail, ih _ h.tail,
      ih _ h.tail]

/-- Both skip the same blanks and comments. -/
theorem skip_eq {r : List Char} (h : Spaced r) : Plain.skip r = skip r := skipFrom_eq false h

/-- A character that a datum can start with, as far as blanks and comments go. -/
structure Significant (c : Char) : Prop where
  blank : isBlank c = false
  comment : c ≠ ';'

theorem significant_of_skipFrom {b : Bool} {r s : List Char} {c : Char}
    (h : Plain.skipFrom b r = c :: s) : Significant c := by
  induction r generalizing b with
  | nil => cases h
  | cons d r ih =>
    rw [Plain.skipFrom] at h
    split_ifs at h with hb hc hs
    · exact ih h
    · exact ih h
    · exact ih h
    · cases h
      exact ⟨Bool.eq_false_iff.2 hs, hc⟩

theorem significant_of_skip {r s : List Char} {c : Char} (h : Plain.skip r = c :: s) :
    Significant c := significant_of_skipFrom h

theorem Significant.isSpace {c : Char} (h : Significant c) : isSpace c = false :=
  Bool.eq_false_iff.2 fun hs => Bool.eq_false_iff.1 h.blank (isBlank_of_isSpace hs)

/-- The grammar does not skip what the reader does not skip. -/
theorem Significant.skip_cons {c : Char} (h : Significant c) (r : List Char) :
    skip (c :: r) = c :: r := skip_of_not_space r h.isSpace h.comment

theorem isConstituent_of_not_isDelimiter {c : Char} (h : isDelimiter c = false) :
    isConstituent c = true := by
  simp only [isDelimiter, Bool.or_eq_false_iff] at h
  have hs : isSpace c = false :=
    Bool.eq_false_iff.2 fun hs => Bool.eq_false_iff.1 h.1 (isBlank_of_isSpace hs)
  rw [isConstituent, hs, h.2]
  rfl

theorem Significant.isConstituent {c : Char} (h : Significant c) (h1 : c ≠ '(') (h2 : c ≠ ')')
    (h3 : c ≠ '"') (h4 : c ≠ '\'') : isConstituent c = true := by
  apply isConstituent_of_not_isDelimiter
  simp only [isDelimiter, h.blank, isPunctuation, Bool.or_eq_false_iff, beq_eq_false_iff_ne]
  exact ⟨trivial, ⟨⟨⟨⟨h1, h2⟩, h3⟩, h.comment⟩, h4⟩⟩

theorem Spaced.not_isDelimiter_eq {c : Char} {r : List Char} (h : Spaced r) (hc : c ∈ r) :
    (!isDelimiter c) = Datum.isConstituent c := by
  rw [isDelimiter, h.isBlank_eq hc, Bool.not_or]
  rfl

/-! ## Strings and atoms -/

theorem toOption_map {α β ε : Type} (x : Except ε α) (f : α → β) :
    (x.map f).toOption = x.toOption.map f := by cases x <;> rfl

/-- Both see the same strings; what is cut out has the closing quote too. -/
theorem toOption_stringRest (b : Bool) (r : List Char) :
    (Plain.stringRest b r).toOption = (stringBody b r).map (Prod.map (· ++ ['"']) id) := by
  induction r generalizing b with
  | nil => rfl
  | cons c r ih =>
    rw [Plain.stringRest, stringBody]
    cases b with
    | true =>
      rw [if_neg (by simp), if_pos rfl, toOption_map, ih, Option.map_map, Option.map_map]
      rfl
    | false =>
      by_cases hc : c = '"'
      · rw [if_pos (by simp [hc]), if_neg (by simp), if_pos hc, hc]
        rfl
      · rw [if_neg (by simp [hc]), if_neg (by simp), if_neg hc, toOption_map, ih, Option.map_map,
          Option.map_map]
        rfl

theorem stringBody_of_ok {r cs s : List Char} (h : Plain.stringRest false r = .ok (cs, s)) :
    ∃ body, cs = body ++ ['"'] ∧ stringBody false r = some (body, s) := by
  have he := toOption_stringRest false r
  rw [h] at he
  obtain ⟨⟨body, t⟩, hb, ht⟩ := Option.map_eq_some_iff.1 he.symm
  cases ht
  exact ⟨body, rfl, hb⟩

theorem stringBody_of_error {r : List Char} {f : Fault}
    (h : Plain.stringRest false r = .error f) : stringBody false r = none := by
  have he := toOption_stringRest false r
  rw [h] at he
  exact Option.map_eq_none_iff.1 he.symm

theorem isConstituent_of_mem_atomRest {c : Char} {r : List Char} (hc : c ∈ (Plain.atomRest r).1) :
    Datum.isConstituent c = true := by
  have h := List.all_eq_true.1 List.all_takeWhile c hc
  exact isConstituent_of_not_isDelimiter (Bool.not_eq_true' _ ▸ h)

/-- Both see the same atoms. -/
theorem atomRest_eq {r : List Char} (h : Spaced r) :
    Plain.atomRest r = (r.takeWhile Datum.isConstituent, r.dropWhile Datum.isConstituent) := by
  induction r with
  | nil => rfl
  | cons c r ih =>
    have ih := ih h.tail
    simp only [Plain.atomRest, Prod.mk.injEq] at ih ⊢
    rw [List.takeWhile_cons, List.takeWhile_cons, List.dropWhile_cons, List.dropWhile_cons,
      h.not_isDelimiter_eq (List.mem_cons_self ..), ih.1, ih.2]
    exact ⟨rfl, rfl⟩

/-! ## Texts that are cut out -/

theorem exists_cons_of_datum {c : Char} {r cs s : List Char} (h : Plain.datum c r = .ok (cs, s)) :
    ∃ ds, cs = c :: ds := by
  rw [Plain.datum_eq] at h
  split_ifs at h
  · obtain ⟨ds, -, hd⟩ := Plain.map_eq_ok h
    exact ⟨ds, hd⟩
  · obtain ⟨ds, -, hd⟩ := Plain.map_eq_ok h
    exact ⟨ds, hd⟩
  · split at h
    · cases h
    · obtain ⟨ds, -, hd⟩ := Plain.map_eq_ok h
      exact ⟨ds, hd⟩
  · cases h
    exact ⟨_, rfl⟩

theorem closed_of_items {r cs s : List Char} (h : Plain.items r = .ok (cs, s)) (t : List Char) :
    Closed (cs ++ t) := by
  rw [Plain.items_eq] at h
  split at h
  · cases h
  · split_ifs at h with hc
    · cases h
      exact closed_cons t (hc ▸ by decide)
    · split at h
      · cases h
      · obtain ⟨ds, -, rfl⟩ := Plain.map_eq_ok h
        exact closed_cons _ (by decide)

/-- The grammar reads `cs` as `e`, in front of any text that does not run on an atom. -/
def Spells (casing : Casing) (cs : List Char) (e : Expr) : Prop :=
  ∀ t, Closed t → termOf casing (cs ++ t) = some (e, t)

/-- The grammar reads `cs` as the items `es` of a list and its end, in front of any text. -/
def SpellsItems (casing : Casing) (cs : List Char) (es : List Expr) : Prop :=
  ∀ t, itemsOf casing (cs ++ t) = some (es, t)

theorem Spells.list {casing : Casing} {cs : List Char} {es : List Expr}
    (h : SpellsItems casing cs es) : Spells casing ('(' :: cs) (.list es) := by
  intro t _
  rw [List.cons_append, termOf_list, h t]
  rfl

theorem Spells.string {r body s : List Char} (casing : Casing)
    (h : stringBody false r = some (body, s)) :
    Spells casing ('"' :: (body ++ ['"'])) (.str (String.ofList (Text.Quoted.decode body))) := by
  intro t _
  have hb := stringBody_append h t
  rw [List.cons_append, List.append_assoc, List.singleton_append, termOf_string casing hb]

theorem Spells.quote {casing : Casing} {c : Char} {cs : List Char} {e : Expr} (hc : Significant c)
    (h : Spells casing (c :: cs) e) : Spells casing ('\'' :: c :: cs) e.quoted := by
  intro t ht
  rw [List.cons_append, termOf_quote, List.cons_append, hc.skip_cons, ← List.cons_append, h t ht]
  rfl

theorem Spells.atom (casing : Casing) {c : Char} {cs : List Char}
    (h : ∀ x ∈ c :: cs, Datum.isConstituent x = true) :
    Spells casing (c :: cs) (.atom (casing.apply (String.ofList (c :: cs)))) :=
  fun _ ht => termOf_atom casing h ht

theorem SpellsItems.cons {casing : Casing} {c : Char} {cs ds : List Char} {e : Expr}
    {es : List Expr} (hc : Leads c) (he : Spells casing (c :: cs) e)
    (hes : SpellsItems casing ds es) (hds : ∀ t, Closed (ds ++ t)) :
    SpellsItems casing (' ' :: (c :: cs) ++ ds) (e :: es) := by
  intro t
  have ht := he (ds ++ t) (hds t)
  rw [List.cons_append] at ht
  rw [List.append_assoc, List.cons_append, itemsOf_space, List.cons_append, itemsOf_cons hc ht,
    hes t]
  rfl

/-- **Spelling.** What the reader cuts out spells an expression.  If the text is spaced, it is the
expression that the grammar finds in front of what is left. -/
theorem datum_spells (casing : Casing) :
    (∀ c r, Significant c → ∀ cs s, Plain.datum c r = .ok (cs, s) →
      ∃ e, Spells casing cs e ∧ (Spaced (c :: r) → termOf casing (c :: r) = some (e, s))) ∧
    (∀ r cs s, Plain.items r = .ok (cs, s) →
      ∃ es, SpellsItems casing cs es ∧ (Spaced r → itemsOf casing r = some (es, s))) := by
  apply Plain.datum_items_induct
    (P := fun c r => Significant c → ∀ cs s, Plain.datum c r = .ok (cs, s) →
      ∃ e, Spells casing cs e ∧ (Spaced (c :: r) → termOf casing (c :: r) = some (e, s)))
    (Q := fun r => ∀ cs s, Plain.items r = .ok (cs, s) →
      ∃ es, SpellsItems casing cs es ∧ (Spaced r → itemsOf casing r = some (es, s)))
  · -- a list
    intro r ih _ cs s h
    rw [Plain.datum_list] at h
    obtain ⟨ds, hi, rfl⟩ := Plain.map_eq_ok h
    obtain ⟨es, hes, hr⟩ := ih ds s hi
    refine ⟨.list es, .list hes, fun hsp => ?_⟩
    rw [termOf_list, hr hsp.tail]
    rfl
  · -- a stray closing parenthesis
    intro r _ cs s h
    rw [Plain.datum_eq] at h
    cases h
  · -- a string
    intro r _ cs s h
    rw [Plain.datum_string] at h
    obtain ⟨ds, hd, rfl⟩ := Plain.map_eq_ok h
    obtain ⟨body, rfl, hb⟩ := stringBody_of_ok hd
    exact ⟨_, .string casing hb, fun _ => termOf_string casing hb⟩
  · -- a quote at the end
    intro r hr _ cs s h
    rw [Plain.datum_eq, hr] at h
    cases h
  · -- a quote before an expression
    intro r d t hr ih _ cs s h
    rw [Plain.datum_quote hr] at h
    obtain ⟨ds, hd, rfl⟩ := Plain.map_eq_ok h
    have hsig := significant_of_skip hr
    obtain ⟨e, he, ht⟩ := ih hsig ds s hd
    obtain ⟨ds, rfl⟩ := exists_cons_of_datum hd
    refine ⟨e.quoted, .quote hsig he, fun hsp => ?_⟩
    rw [termOf_quote, ← skip_eq hsp.tail, hr, ht (hsp.tail.of_skip hr)]
    rfl
  · -- an atom
    intro c r h1 h2 h3 h4 hsig cs s h
    have hc := hsig.isConstituent h1 h2 h3 h4
    rw [Plain.datum_atom r h1 h2 h3 h4] at h
    cases h
    refine ⟨_, .atom casing fun x hx => ?_, fun hsp => ?_⟩
    · rcases List.mem_cons.1 hx with rfl | hx
      · exact hc
      · exact isConstituent_of_mem_atomRest hx
    · rw [termOf_cons, atomRest_eq hsp.tail]
      simp only [h1, h3, h4, hc, ↓reduceIte]
  · -- items that do not end
    intro r hr cs s h
    rw [Plain.items_eq, hr] at h
    cases h
  · -- the closing parenthesis
    intro r t hr cs s h
    rw [Plain.items_close hr] at h
    cases h
    refine ⟨[], itemsOf_close casing, fun hsp => ?_⟩
    rw [itemsOf_eq, ← skip_eq hsp, hr]
    rfl
  · -- an item that cannot be cut out
    intro r c t f hr hc hd _ cs s h
    rw [Plain.items_cons hr hc, hd] at h
    cases h
  · -- an item and those behind it
    intro r c t cs u hr hc hd ih ih' ds s h
    rw [Plain.items_cons hr hc, hd] at h
    obtain ⟨es, hi, rfl⟩ := Plain.map_eq_ok h
    have hsig := significant_of_skip hr
    obtain ⟨e, he, ht⟩ := ih hsig cs u hd
    obtain ⟨xs, hxs, hu⟩ := ih' es s hi
    have hsuf := Plain.datum_items_suffix.1 c t cs u hd
    obtain ⟨cs, rfl⟩ := exists_cons_of_datum hd
    refine ⟨e :: xs, .cons ⟨hsig.isSpace, hsig.comment, hc⟩ he hxs (closed_of_items hi),
      fun hsp => ?_⟩
    have hsp' := hsp.of_skip hr
    rw [itemsOf_eq, ← skip_eq hsp, hr]
    simp only [hc, ↓reduceIte, ht hsp', hu (hsp'.tail.of_suffix hsuf)]
    rfl

/-- Where no datum can be cut out of a spaced text, the grammar finds no expression. -/
theorem termOf_of_datum_error (casing : Casing) :
    (∀ c r, Significant c → Spaced (c :: r) → ∀ f, Plain.datum c r = .error f →
      termOf casing (c :: r) = none) ∧
    (∀ r, Spaced r → ∀ f, Plain.items r = .error f → itemsOf casing r = none) := by
  apply Plain.datum_items_induct
    (P := fun c r => Significant c → Spaced (c :: r) → ∀ f, Plain.datum c r = .error f →
      termOf casing (c :: r) = none)
    (Q := fun r => Spaced r → ∀ f, Plain.items r = .error f → itemsOf casing r = none)
  · -- a list
    intro r ih _ hsp f h
    rw [Plain.datum_list] at h
    rw [termOf_list, ih hsp.tail f (Plain.map_eq_error h)]
    rfl
  · -- a stray closing parenthesis
    intro r _ _ f _
    rw [termOf_cons]
    rfl
  · -- a string
    intro r _ _ f h
    rw [Plain.datum_string] at h
    rw [termOf_cons, stringBody_of_error (Plain.map_eq_error h)]
    rfl
  · -- a quote at the end
    intro r hr _ hsp f _
    rw [termOf_quote, ← skip_eq hsp.tail, hr, termOf_nil]
    rfl
  · -- a quote before an expression
    intro r d t hr ih _ hsp f h
    rw [Plain.datum_quote hr] at h
    rw [termOf_quote, ← skip_eq hsp.tail, hr,
      ih (significant_of_skip hr) (hsp.tail.of_skip hr) f (Plain.map_eq_error h)]
    rfl
  · -- an atom
    intro c r h1 h2 h3 h4 _ _ f h
    rw [Plain.datum_atom r h1 h2 h3 h4] at h
    cases h
  · -- items that do not end
    intro r hr hsp f _
    rw [itemsOf_eq, ← skip_eq hsp, hr]
  · -- the closing parenthesis
    intro r t hr _ f h
    rw [Plain.items_close hr] at h
    cases h
  · -- an item that cannot be cut out
    intro r c t f hr hc hd ih hsp g _
    have hsp' := hsp.of_skip hr
    rw [itemsOf_eq, ← skip_eq hsp, hr]
    simp only [hc, ↓reduceIte, ih (significant_of_skip hr) hsp' f hd]
  · -- an item before one that cannot be cut out
    intro r c t cs u hr hc hd _ ih' hsp f h
    have hsp' := hsp.of_skip hr
    obtain ⟨e, -, ht⟩ := (datum_spells casing).1 c t (significant_of_skip hr) cs u hd
    have hu := hsp'.tail.of_suffix (Plain.datum_items_suffix.1 c t cs u hd)
    rw [Plain.items_cons hr hc, hd] at h
    rw [itemsOf_eq, ← skip_eq hsp, hr]
    simp only [hc, ↓reduceIte, ht hsp', ih' hu f (Plain.map_eq_error h), Option.map_none]

/-! ## Reading and parsing -/

theorem parse?_of_spells {casing : Casing} {c : Char} {cs : List Char} {e : Expr}
    (hc : Significant c) (h : Spells casing (c :: cs) e) :
    parse? casing (String.ofList (c :: cs)) = some e := by
  refine parse?_eq_some_iff.2 ⟨[], ?_, rfl⟩
  rw [String.toList_ofList, hc.skip_cons, ← List.append_nil (c :: cs)]
  exact h [] closed_nil

/-- On a spaced text the plain reader and the grammar find the same expression. -/
theorem plain_read_iff {casing : Casing} {r s : List Char} {e : Expr} (h : Spaced r) :
    Plain.read casing r = .ok (e, s) ↔ termOf casing (skip r) = some (e, s) := by
  rw [← skip_eq h, Plain.read]
  rcases hs : Plain.skip r with _ | ⟨c, t⟩
  · rw [termOf_nil]
    exact ⟨nofun, nofun⟩
  · have hsig := significant_of_skip hs
    have hsp := h.of_skip hs
    show Plain.expression casing c t = _ ↔ _
    unfold Plain.expression
    rcases hd : Plain.datum c t with f | ⟨cs, u⟩
    · rw [(termOf_of_datum_error casing).1 c t hsig hsp f hd]
      exact ⟨nofun, nofun⟩
    · obtain ⟨e', he, ht⟩ := (datum_spells casing).1 c t hsig cs u hd
      obtain ⟨cs, rfl⟩ := exists_cons_of_datum hd
      simp only [parse?_of_spells hsig he, ht hsp]
      exact ⟨fun hx => congrArg some (Except.ok.inj hx), fun hx => congrArg _ (Option.some.inj hx)⟩

/-- A legible input is at its end if nothing remains. -/
theorem next_eq_none_iff {i : Input} (h : i.Legible) :
    (∃ j, i.next = (.ok none, j)) ↔ i.remaining = [] := by
  have hn := Input.reads_next h
  constructor
  · rintro ⟨j, hj⟩
    exact (hj ▸ hn).of_none.1
  · intro hr
    rw [hr] at hn
    exact ⟨i.next.2, Prod.ext hn.value rfl⟩

/-- **One language.**  On a text whose only blanks are the separators of the grammar, parsing the
text gives an expression exactly if reading from an input over the text gives it and nothing but
blanks and comments follows. -/
theorem read_iff_parse (casing : Casing) (name text : String) (e : Expr)
    (h : ∀ c ∈ text.toList, isBlank c = true → c = ' ' ∨ c = '\t' ∨ c = '\r' ∨ c = '\n') :
    parse casing text = .ok e ↔
      ∃ i j k : Input, read casing (.ofText name text) = (.ok e, i) ∧
        skipBlanks i = (.ok (), j) ∧ j.next = (.ok none, k) := by
  have hsp : Spaced text.toList := by
    intro c hc hb
    rcases h c hc hb with rfl | rfl | rfl | rfl <;> rfl
  have hread := agrees_read casing (Input.legible_ofText name text)
  rw [Input.remaining_ofText] at hread
  rw [parse_eq_ok_iff, parse?_eq_some_iff]
  constructor
  · rintro ⟨s, hs, hend⟩
    have hp := (plain_read_iff hsp).2 hs
    rw [hp] at hread
    obtain ⟨i, hi, hli, hri⟩ := hread.exists_ok
    obtain ⟨j, hj, hlj, hrj⟩ := reads_skipBlanks hli
    rw [hri, skip_eq (hsp.of_suffix (Plain.read_suffix hp)), hend] at hrj
    obtain ⟨k, hk⟩ := (next_eq_none_iff hlj).2 hrj
    exact ⟨i, j, k, hi, hj, hk⟩
  · rintro ⟨i, j, k, hi, hj, hk⟩
    rw [hi] at hread
    obtain ⟨hp, hli⟩ := hread.of_ok
    obtain ⟨j', hj', hlj, hrj⟩ := reads_skipBlanks hli
    obtain rfl : j = j' := congrArg Prod.snd (hj.symm.trans hj')
    refine ⟨i.remaining, (plain_read_iff hsp).1 hp, ?_⟩
    rw [← skip_eq (hsp.of_suffix (Plain.read_suffix hp)), ← hrj]
    exact (next_eq_none_iff hlj).1 ⟨k, hk⟩

/-- A quoted list with a comment inside, a string with a parenthesis, and a comment behind it. -/
theorem read_iff_parse_commented :
    let text := "'(a \"(b\" ;)\n c) ;"
    (∀ c ∈ text.toList, isBlank c = true → c = ' ' ∨ c = '\t' ∨ c = '\r' ∨ c = '\n') ∧
    ∃ i j k : Input,
      read .keep (.ofText "document" text) =
        (.ok (Expr.list [.atom "a", .str "(b", .atom "c"]).quoted, i) ∧
      skipBlanks i = (.ok (), j) ∧ j.next = (.ok none, k) := by
  intro text
  have hb : ∀ c ∈ text.toList,
      isBlank c = true → c = ' ' ∨ c = '\t' ∨ c = '\r' ∨ c = '\n' := by simp [text, isBlank]
  have hp : parse .keep text = .ok (Expr.list [.atom "a", .str "(b", .atom "c"]).quoted := by
    refine parse_eq_ok_iff.2 (parse?_eq_some_iff.2 ⟨" ;".toList, ?_, rfl⟩)
    simp [text, termOf_cons, itemsOf_eq, skip, skipFrom, stringBody, isSpace, isConstituent,
      isPunctuation, Text.Quoted.decode, Text.Quoted.decodeFrom]
  exact ⟨hb, (read_iff_parse .keep "document" text _ hb).1 hp⟩

end Sigil.Datum
