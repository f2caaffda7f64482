import Sigil.Proofs.Grammar

/-!
# Printed forms read back

`Datum.printed_faithful`: the printed form of a readable expression is a datum, and what it stands
for is the expression with its names cased.  Whatever the grammar reads is readable, so printing and
reading go round.

1. A printed expression in front of a closed text is taken off whole (`termOf_printed`); this goes
   by recursion on the expression, together with the items behind the first one of a list.
2. A name that the grammar reads consists of constituents (`readable_of_termOf_and_itemsOf`).
-/

namespace Sigil

namespace Expr

/-! ## Names -/

mutual

/-- The names of the atoms in an expression. -/
def names : Expr → List String
  | .atom name => [name]
  | .str _ => []
  | .list es => namesOfItems es

/-- The names of the atoms in a list. -/
def namesOfItems : List Expr → List String
  | [] => []
  | e :: es => e.names ++ namesOfItems es

end

mutual

/-- An expression with its names changed. -/
def mapNames (f : String → String) : Expr → Expr
  | .atom name => .atom (f name)
  | .str text => .str text
  | .list es => .list (mapItems f es)

/-- The elements of a list with their names changed. -/
def mapItems (f : String → String) : List Expr → List Expr
  | [] => []
  | e :: es => e.mapNames f :: mapItems f es

end

mutual

theorem mapNames_id : ∀ e : Expr, e.mapNames (fun name => name) = e
  | .atom _ => rfl
  | .str _ => rfl
  | .list es => by rw [mapNames, mapItems_id es]

theorem mapItems_id : ∀ es : List Expr, mapItems (fun name => name) es = es
  | [] => rfl
  | e :: es => by rw [mapItems, mapNames_id e, mapItems_id es]

end

/-- A name that can be read back: it has a character, and none of its characters separates. -/
def ReadableName (name : String) : Prop :=
  name ≠ "" ∧ ∀ c ∈ name.toList, c ∉ [' ', '\t', '\r', '\n', '(', ')', '"', ';', '\'']

instance : DecidablePred ReadableName := fun name =>
  decidable_of_iff
    (name ≠ "" ∧ name.toList.all fun c => c ∉ [' ', '\t', '\r', '\n', '(', ')', '"', ';', '\''])
    (by rw [ReadableName, List.all_eq_true]; simp only [decide_eq_true_eq])

/-- All names of the expression can be read back. -/
def Readable (e : Expr) : Prop := ∀ name ∈ e.names, ReadableName name

instance : DecidablePred Readable := fun _ => by unfold Readable; infer_instance

theorem ReadableName.exists_cons {name : String} (h : ReadableName name) :
    ∃ c cs, name.toList = c :: cs ∧ ∀ x ∈ c :: cs, Datum.isConstituent x = true := by
  rcases hn : name.toList with _ | ⟨c, cs⟩
  · exact absurd (String.toList_eq_nil_iff.1 hn) h.1
  · exact ⟨c, cs, rfl, fun x hx => Datum.isConstituent_iff.2 (h.2 x (hn ▸ hx))⟩

theorem readableName_ofList {c : Char} {cs : List Char}
    (h : ∀ x ∈ c :: cs, Datum.isConstituent x = true) : ReadableName (String.ofList (c :: cs)) := by
  refine ⟨fun he => ?_, fun x hx => ?_⟩
  · have := congrArg String.toList he
    rw [String.toList_ofList] at this
    cases this
  · rw [String.toList_ofList] at hx
    exact Datum.isConstituent_iff.1 (h x hx)

theorem readable_list_cons {e : Expr} {es : List Expr} :
    Readable (.list (e :: es)) ↔ e.Readable ∧ Readable (.list es) := by
  simp only [Readable, names, namesOfItems, List.mem_append, or_imp, forall_and]

theorem readable_quoted {e : Expr} (h : e.Readable) : e.quoted.Readable := by
  refine readable_list_cons.2 ⟨?_, readable_list_cons.2 ⟨h, nofun⟩⟩
  intro name hn
  rw [List.mem_singleton.1 hn]
  decide

end Expr

namespace Datum

open Text (Casing)
open Text.Quoted (encode literal)

/-! ## Reading a printed form -/

theorem stringBody_encode (s t : List Char) :
    stringBody false (encode s ++ '"' :: t) = some (encode s, t) := by
  induction s with
  | nil => rfl
  | cons c s ih =>
    rw [encode]
    split_ifs with hc
    · simp [stringBody, ih]
    · obtain ⟨hq, hb⟩ := not_or.1 hc
      simp [stringBody, hq, beq_eq_false_iff_ne.2 hb, ih]

/-- A printed expression starts as an item of a list does. -/
theorem exists_leads_printed {e : Expr} (h : e.Readable) :
    ∃ c cs, e.printed.toList = c :: cs ∧ Leads c := by
  match e with
  | .atom name =>
    obtain ⟨c, cs, hn, hcs⟩ := (h name (List.mem_singleton_self _)).exists_cons
    exact ⟨c, cs, hn, .of_isConstituent (hcs c (List.mem_cons_self ..))⟩
  | .str text => exact ⟨'"', _, String.toList_ofList .., by decide, by decide, by decide⟩
  | .list [] => exact ⟨'(', [')'], rfl, by decide, by decide, by decide⟩
  | .list (e :: es) =>
    refine ⟨'(', e.printed.toList ++ (Expr.printedRest es).toList, ?_, by decide, by decide,
      by decide⟩
    simp [Expr.printed]

theorem closed_printedRest (es : List Expr) (t : List Char) :
    Closed ((Expr.printedRest es).toList ++ t) := by
  cases es with
  | nil => exact closed_cons t (by decide)
  | cons e es =>
    simp only [Expr.printedRest, String.toList_append, List.append_assoc]
    exact closed_cons _ (by decide)

/-- A printed item and those behind it are read in turn. -/
theorem itemsOf_printed {casing : Casing} {e : Expr} {es : List Expr} {t : List Char}
    (he : e.Readable)
    (hfirst : termOf casing (e.printed.toList ++ ((Expr.printedRest es).toList ++ t)) =
      some (e.mapNames casing.apply, (Expr.printedRest es).toList ++ t))
    (hrest : itemsOf casing ((Expr.printedRest es).toList ++ t) =
      some (Expr.mapItems casing.apply es, t)) :
    itemsOf casing (e.printed.toList ++ ((Expr.printedRest es).toList ++ t)) =
      some (Expr.mapItems casing.apply (e :: es), t) := by
  obtain ⟨c, cs, hc, hl⟩ := exists_leads_printed he
  rw [hc, List.cons_append] at hfirst ⊢
  rw [itemsOf_cons hl hfirst, hrest]
  rfl

mutual

/-- **Printing.** A printed expression in front of a closed text is read back, its names cased. -/
theorem termOf_printed (casing : Casing) : ∀ (e : Expr) (t : List Char), e.Readable → Closed t →
    termOf casing (e.printed.toList ++ t) = some (e.mapNames casing.apply, t)
  | .atom name, t, h, ht => by
    obtain ⟨c, cs, hn, hcs⟩ := (h name (List.mem_singleton_self _)).exists_cons
    rw [Expr.printed, hn, termOf_atom casing hcs ht, ← hn, String.ofList_toList]
    rfl
  | .str text, t, _, _ => by
    rw [Expr.printed, literal, String.toList_ofList]
    show termOf casing ('"' :: ((encode text.toList ++ ['"']) ++ t)) = _
    rw [List.append_assoc, List.singleton_append,
      termOf_string casing (stringBody_encode text.toList t), Text.Quoted.decode_encode,
      String.ofList_toList]
    rfl
  | .list [], t, _, _ => by
    show termOf casing ('(' :: ')' :: t) = _
    rw [termOf_list, itemsOf_close]
    rfl
  | .list (e :: es), t, h, _ => by
    obtain ⟨he, hes⟩ := Expr.readable_list_cons.1 h
    have hx : (Expr.list (e :: es)).printed.toList ++ t =
        '(' :: (e.printed.toList ++ ((Expr.printedRest es).toList ++ t)) := by
      simp [Expr.printed]
    have hfirst := termOf_printed casing e _ he (closed_printedRest es t)
    rw [hx, termOf_list, itemsOf_printed he hfirst (itemsOf_printedRest casing es t hes)]
    rfl

/-- The items of a printed list behind its first one. -/
theorem itemsOf_printedRest (casing : Casing) : ∀ (es : List Expr) (t : List Char),
    Expr.Readable (.list es) →
    itemsOf casing ((Expr.printedRest es).toList ++ t) = some (Expr.mapItems casing.apply es, t)
  | [], t, _ => itemsOf_close casing t
  | e :: es, t, h => by
    obtain ⟨he, hes⟩ := Expr.readable_list_cons.1 h
    have hx : (Expr.printedRest (e :: es)).toList ++ t =
        ' ' :: (e.printed.toList ++ ((Expr.printedRest es).toList ++ t)) := by
      simp [Expr.printedRest]
    have hfirst := termOf_printed casing e _ he (closed_printedRest es t)
    rw [hx, itemsOf_space, itemsOf_printed he hfirst (itemsOf_printedRest casing es t hes)]

end

/-! ## What is read is readable -/

theorem mem_takeWhile_constituent {c x : Char} {r : List Char} (hc : isConstituent c = true)
    (hx : x ∈ c :: r.takeWhile isConstituent) : isConstituent x = true := by
  rcases List.mem_cons.1 hx with rfl | hx
  · exact hc
  · exact List.all_eq_true.1 List.all_takeWhile x hx

/-- **Readable expressions.** The grammar reads only expressions that can be read back. -/
theorem readable_of_termOf_and_itemsOf :
    (∀ cs e s, termOf .keep cs = some (e, s) → e.Readable) ∧
    (∀ cs es s, itemsOf .keep cs = some (es, s) → Expr.Readable (.list es)) := by
  apply term.mutual_induct .keep (fun cs => ∀ e s, termOf .keep cs = some (e, s) → e.Readable)
    (fun cs => ∀ es s, itemsOf .keep cs = some (es, s) → Expr.Readable (.list es))
  · -- no text
    intro e s h
    rw [termOf_nil] at h
    cases h
  · -- a list
    intro r ih e s h
    rw [termOf_list] at h
    obtain ⟨⟨es, t⟩, hi, he⟩ := Option.map_eq_some_iff.1 h
    cases he
    exact ih es t hi
  · -- a quoted expression
    intro r _ _ ih e s h
    rw [termOf_quote] at h
    obtain ⟨⟨e', t⟩, hi, he⟩ := Option.map_eq_some_iff.1 h
    cases he
    exact Expr.readable_quoted (ih e' t hi)
  · -- a string that does not end
    intro r hr _ _ e s h
    rw [termOf_cons, hr] at h
    cases h
  · -- a string
    intro r body t hr _ _ e s h
    rw [termOf_string _ hr] at h
    cases h
    exact nofun
  · -- an atom
    intro c r h1 h2 h3 hc e s h
    rw [termOf_cons] at h
    simp only [h1, h2, h3, hc, ↓reduceIte, Option.some.injEq, Prod.mk.injEq] at h
    obtain ⟨rfl, rfl⟩ := h
    intro name hn
    rw [List.mem_singleton.1 hn]
    exact Expr.readableName_ofList fun x hx => mem_takeWhile_constituent hc hx
  · -- a character that starts no expression
    intro c r h1 h2 h3 hc e s h
    rw [termOf_cons] at h
    simp only [h1, h2, h3, hc, ↓reduceIte] at h
    cases h
  · -- items that do not end
    intro cs _ hs es s h
    rw [itemsOf_eq, hs] at h
    cases h
  · -- the closing parenthesis
    intro cs _ r hs es s h
    rw [itemsOf_eq, hs] at h
    cases h
    exact nofun
  · -- an item that is no expression
    intro cs _ c r hs hc ht _ es s h
    rw [itemsOf_eq, hs] at h
    simp only [hc, ↓reduceIte, termOf, ht] at h
    cases h
  · -- an item and those behind it
    intro cs _ c r hs hc e rest ht _ ih ih' es s h
    have hterm : termOf .keep (c :: r) = some (e, rest.1) := by rw [termOf, ht]; rfl
    rw [itemsOf_eq, hs] at h
    simp only [hc, ↓reduceIte, hterm] at h
    obtain ⟨⟨es', t⟩, hi, he⟩ := Option.map_eq_some_iff.1 h
    cases he
    exact Expr.readable_list_cons.2 ⟨ih e _ hterm, ih' es' t hi⟩

theorem readable_of_parse {text : String} {e : Expr} (h : parse .keep text = .ok e) :
    e.Readable := by
  obtain ⟨s, hs, -⟩ := parse?_eq_some_iff.1 (parse_eq_ok_iff.1 h)
  exact readable_of_termOf_and_itemsOf.1 _ _ _ hs

theorem parse_printed (casing : Casing) {e : Expr} (h : e.Readable) :
    parse casing e.printed = .ok (e.mapNames casing.apply) := by
  obtain ⟨c, cs, hc, hl⟩ := exists_leads_printed h
  refine parse_eq_ok_iff.2 (parse?_eq_some_iff.2 ⟨[], ?_, rfl⟩)
  rw [hc, skip_of_not_space cs hl.space hl.comment, ← hc]
  simpa using termOf_printed casing e [] h closed_nil

/-- **The printed form is faithful.**  It is read back as the expression with its names cased, as
the expression itself if case is kept; and what is read with case kept can be printed and read
again. -/
theorem printed_faithful :
    (∀ (e : Expr) (casing : Casing), e.Readable →
      parse casing e.printed = .ok (e.mapNames casing.apply)) ∧
    (∀ e : Expr, e.Readable → parse .keep e.printed = .ok e) ∧
    (∀ (text : String) (e : Expr), parse .keep text = .ok e →
      e.Readable ∧ parse .keep e.printed = .ok e) := by
  have keep : ∀ e : Expr, e.Readable → parse .keep e.printed = .ok e := by
    intro e h
    rw [parse_printed .keep h]
    exact congrArg _ (Expr.mapNames_id e)
  refine ⟨fun e casing h => parse_printed casing h, keep, fun text e h => ?_⟩
  have hr := readable_of_parse h
  exact ⟨hr, keep e hr⟩

/-- A list with a name in capitals, a string of marks, an empty list and a quoted name. -/
theorem printed_faithful_nested :
    let e : Expr := .list [.atom "Ab", .str "x\"(\\;", .list [], .list [.atom "quote", .atom "C"]]
    let lower : Expr :=
      .list [.atom "ab", .str "x\"(\\;", .list [], .list [.atom "quote", .atom "c"]]
    (e.Readable ∧ parse (.fold .lower) e.printed = .ok lower) ∧
    (parse .keep " (Ab;one\n\"x\\\"(\\\\;\"()'C)" = .ok e ∧ parse .keep e.printed = .ok e) := by
  intro e lower
  have hr : e.Readable := by decide
  have hl : e.mapNames (Casing.apply (.fold .lower)) = lower := rfl
  have hp : parse .keep " (Ab;one\n\"x\\\"(\\\\;\"()'C)" = .ok e := by
    refine parse_eq_ok_iff.2 (parse?_eq_some_iff.2 ⟨[], ?_, rfl⟩)
    simp [e, termOf_cons, itemsOf_eq, skip, skipFrom, stringBody, isSpace, isConstituent,
      isPunctuation, Text.Quoted.decode, Text.Quoted.decodeFrom, Expr.quoted]
  refine ⟨⟨hr, ?_⟩, hp, (printed_faithful.2.2 _ e hp).2⟩
  rw [printed_faithful.1 e (.fold .lower) hr, hl]

end Datum

end Sigil
