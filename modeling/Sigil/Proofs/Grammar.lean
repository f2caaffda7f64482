import Sigil.Datum.Grammar
import Mathlib.Data.List.Basic
import Mathlib.Tactic.SplitIfs

/-!
# The grammar of a datum, as equations

The definitions of the grammar carry the bound that makes them end.  `termOf` and `itemsOf` are the
same without it, with one equation for each; everything else about the grammar is proved from these
equations.
-/

namespace Sigil.Datum

open Text (Casing)

/-! ## Expressions -/

/-- The expression at the front of a text, and what follows it. -/
def termOf (casing : Casing) (cs : List Char) : Option (Expr × List Char) :=
  (term casing cs).map (Prod.map id Subtype.val)

/-- The elements of a list up to its closing parenthesis, and what follows that. -/
def itemsOf (casing : Casing) (cs : List Char) : Option (List Expr × List Char) :=
  (items casing cs).map (Prod.map id Subtype.val)

theorem termOf_nil (casing : Casing) : termOf casing [] = none := by
  rw [termOf, term]
  rfl

theorem termOf_cons (casing : Casing) (c : Char) (r : List Char) :
    termOf casing (c :: r) =
      if c = '(' then (itemsOf casing r).map (Prod.map Expr.list id)
      else if c = '\'' then (termOf casing (skip r)).map (Prod.map Expr.quoted id)
      else if c = '"' then
        (stringBody false r).map
          (Prod.map (fun b => .str (String.ofList (Text.Quoted.decode b))) id)
      else if isConstituent c then
        some (.atom (casing.apply (String.ofList (c :: r.takeWhile isConstituent))),
          r.dropWhile isConstituent)
      else none := by
  rw [termOf, term]
  split_ifs
  · rw [itemsOf, Option.map_map, Option.map_map]
    rfl
  · rw [termOf, Option.map_map, Option.map_map]
    rfl
  · split
    · next h => rw [h]; rfl
    · next h =>
      conv_rhs => rw [h]
      rfl
  · rfl
  · rfl

theorem itemsOf_eq (casing : Casing) (cs : List Char) :
    itemsOf casing cs =
      match skip cs with
      | [] => none
      | c :: r =>
        if c = ')' then some ([], r)
        else
          match termOf casing (c :: r) with
          | none => none
          | some (e, s) => (itemsOf casing s).map (Prod.map (e :: ·) id) := by
  rw [itemsOf, items]
  split
  · next h => rw [h]; rfl
  · next c r h =>
    conv_rhs => rw [h]
    show _ = if c = ')' then _ else _
    split_ifs
    · rfl
    · rw [termOf]
      rcases term casing (c :: r) with _ | ⟨e, s⟩
      · rfl
      · show Option.map _ ((items casing s.1).map _) = (itemsOf casing s.1).map _
        rw [itemsOf, Option.map_map, Option.map_map]
        rfl

/-- A text is a datum if an expression stands at its front and only blanks follow. -/
theorem parse?_eq_some_iff {casing : Casing} {text : String} {e : Expr} :
    parse? casing text = some e ↔
      ∃ s, termOf casing (skip text.toList) = some (e, s) ∧ skip s = [] := by
  unfold parse? termOf
  rcases term casing (skip text.toList) with _ | ⟨e', s⟩
  · simp
  · simp only [Option.map_some, Prod.map_apply, id_eq, Option.some.injEq, Prod.mk.injEq]
    constructor
    · intro h
      split_ifs at h with hs
      exact ⟨s.1, ⟨Option.some.inj h, rfl⟩, List.isEmpty_iff.1 hs⟩
    · rintro ⟨_, ⟨rfl, rfl⟩, hs⟩
      rw [if_pos (List.isEmpty_iff.2 hs)]

theorem parse_eq_ok_iff {casing : Casing} {text : String} {e : Expr} :
    parse casing text = .ok e ↔ parse? casing text = some e := by
  unfold parse
  rcases parse? casing text with _ | e'
  · exact ⟨nofun, nofun⟩
  · exact ⟨fun h => congrArg some (Except.ok.inj h), fun h => congrArg _ (Option.some.inj h)⟩

/-! ## Tokens -/

theorem isConstituent_iff {c : Char} :
    isConstituent c = true ↔ c ∉ [' ', '\t', '\r', '\n', '(', ')', '"', ';', '\''] := by
  simp only [isConstituent, isSpace, isPunctuation, Bool.and_eq_true, Bool.not_eq_true',
    Bool.or_eq_false_iff, beq_eq_false_iff_ne, List.mem_cons, List.not_mem_nil, or_false, not_or,
    ne_eq, and_assoc]

/-- The characters an item of a list can start with. -/
structure Leads (c : Char) : Prop where
  space : isSpace c = false
  comment : c ≠ ';'
  close : c ≠ ')'

theorem Leads.of_isConstituent {c : Char} (h : isConstituent c = true) : Leads c := by
  refine ⟨?_, ?_, ?_⟩
  · simp only [isConstituent, Bool.and_eq_true, Bool.not_eq_true'] at h
    exact h.1
  · rintro rfl
    exact absurd h (by decide)
  · rintro rfl
    exact absurd h (by decide)

theorem skip_of_not_space {c : Char} (r : List Char) (hs : isSpace c = false) (hc : c ≠ ';') :
    skip (c :: r) = c :: r := by
  simp [skip, skipFrom, hs, hc]

theorem skip_space (r : List Char) : skip (' ' :: r) = skip r := rfl

theorem itemsOf_close (casing : Casing) (r : List Char) :
    itemsOf casing (')' :: r) = some ([], r) := by
  rw [itemsOf_eq, skip_of_not_space r (by decide) (by decide)]
  rfl

theorem itemsOf_cons {casing : Casing} {c : Char} {r s : List Char} {e : Expr} (hc : Leads c)
    (h : termOf casing (c :: r) = some (e, s)) :
    itemsOf casing (c :: r) = (itemsOf casing s).map (Prod.map (e :: ·) id) := by
  rw [itemsOf_eq, skip_of_not_space r hc.space hc.comment]
  simp only [if_neg hc.close, h]

theorem itemsOf_space (casing : Casing) (r : List Char) :
    itemsOf casing (' ' :: r) = itemsOf casing r := by
  rw [itemsOf_eq, itemsOf_eq casing r, skip_space]

/-- A text that does not run on an atom in front of it. -/
def Closed (t : List Char) : Prop := ∀ c ∈ t.head?, isConstituent c = false

theorem closed_nil : Closed [] := nofun

theorem closed_cons {c : Char} (t : List Char) (h : isConstituent c = false) : Closed (c :: t) := by
  intro d hd
  cases hd
  exact h

theorem Closed.takeWhile {t : List Char} (h : Closed t) : t.takeWhile isConstituent = [] := by
  cases t with
  | nil => rfl
  | cons c t => rw [List.takeWhile_cons, h c rfl]; rfl

theorem Closed.dropWhile {t : List Char} (h : Closed t) : t.dropWhile isConstituent = t := by
  cases t with
  | nil => rfl
  | cons c t => rw [List.dropWhile_cons, h c rfl]; rfl

/-- Constituents up to a closed text are an atom. -/
theorem termOf_atom (casing : Casing) {c : Char} {cs t : List Char}
    (hcs : ∀ x ∈ c :: cs, isConstituent x = true) (ht : Closed t) :
    termOf casing (c :: cs ++ t) =
      some (.atom (casing.apply (String.ofList (c :: cs))), t) := by
  have hc := hcs c (List.mem_cons_self ..)
  have hn := isConstituent_iff.1 hc
  simp only [List.mem_cons, not_or] at hn
  have hr : ∀ x ∈ cs, isConstituent x = true := fun x hx => hcs x (List.mem_cons_of_mem _ hx)
  rw [List.cons_append, termOf_cons, List.takeWhile_append_of_pos hr,
    List.dropWhile_append_of_pos hr, ht.takeWhile, ht.dropWhile, List.append_nil]
  simp only [hn, hc, ↓reduceIte]

/-- The inside of a string is the same in front of any text. -/
theorem stringBody_append {b : Bool} {r body s : List Char}
    (h : stringBody b r = some (body, s)) (t : List Char) :
    stringBody b (body ++ '"' :: t) = some (body, t) := by
  induction r generalizing b body with
  | nil => cases h
  | cons c r ih =>
    rw [stringBody] at h
    split_ifs at h with hb hc
    · obtain ⟨⟨x, y⟩, hxy, he⟩ := Option.map_eq_some_iff.1 h
      cases he
      rw [List.cons_append, stringBody, if_pos hb, ih hxy]
      rfl
    · cases h
      rw [List.nil_append, stringBody, if_neg hb, if_pos rfl]
    · obtain ⟨⟨x, y⟩, hxy, he⟩ := Option.map_eq_some_iff.1 h
      cases he
      rw [List.cons_append, stringBody, if_neg hb, if_neg hc, ih hxy]
      rfl

theorem termOf_string (casing : Casing) {r body s : List Char}
    (h : stringBody false r = some (body, s)) :
    termOf casing ('"' :: r) = some (.str (String.ofList (Text.Quoted.decode body)), s) := by
  rw [termOf_cons, h]
  rfl

theorem termOf_list (casing : Casing) (r : List Char) :
    termOf casing ('(' :: r) = (itemsOf casing r).map (Prod.map Expr.list id) := termOf_cons ..

theorem termOf_quote (casing : Casing) (r : List Char) :
    termOf casing ('\'' :: r) = (termOf casing (skip r)).map (Prod.map Expr.quoted id) :=
  termOf_cons ..

end Sigil.Datum
