import Sigil.Proofs.Remaining
import Sigil.Proofs.Runs
import Sigil.Proofs.Scan
import Mathlib.Data.List.Forall2

/-!
# Matching sigils

`dispatched_dispatchFrom`: trying a table of sigils on an input whose lines can all be read comes to
what the text that remains says, provided that each directive does so (`Implements`).

1. One try reads characters and gives them back, so all that is left of a try that fails is how it
   failed (`matches_matchRest`).
2. One step through the table passes over an entry, remembers that it was cut short, or runs its
   directive (`dispatchFrom_cons`).
3. The first sigil that was cut short is the first inside which the text ends (`firstCut_cons`).
-/

namespace Sigil

open Input (reads_next)

/-! ## One sigil -/

/-- The outcome of trying `want` at the front of the text `r`. -/
inductive Matches (want r : List Char) : Except Failure Match × Input → Prop
  | full {j : Input} (hl : j.Legible) (h : want ++ j.remaining = r) : Matches want r (.ok .full, j)
  | cutShort {j : Input} (stop : Nat) (hl : j.Legible) (hr : j.remaining = r) (h : r <+: want)
    (hne : r ≠ want) : Matches want r (.ok (.cutShort stop), j)
  | differs {j : Input} (hl : j.Legible) (hr : j.remaining = r) (h : ¬ want <+: r)
    (h' : ¬ r <+: want) : Matches want r (.ok .differs, j)

/-- **One try.** A sigil is read if it stands there; else the input is as before. -/
theorem matches_matchRest (want : List Char) {i : Input} (h : i.Legible) :
    Matches want i.remaining (matchRest want i) := by
  induction want generalizing i with
  | nil => exact .full h rfl
  | cons w want ih =>
    have hn := reads_next h
    rw [matchRest]
    rcases hi : i.next with ⟨f | _ | c, j⟩
    · exact (hi ▸ hn).ne_error.elim
    · obtain ⟨hr, hl, hj⟩ := (hi ▸ hn).of_none
      exact .cutShort _ hl (hj.trans hr.symm) (hr ▸ List.nil_prefix) (hr ▸ nofun)
    · obtain ⟨hr, hl⟩ := (hi ▸ hn).of_some
      rw [hr]
      show Matches _ _ (if c = w then _ else _)
      split_ifs with hc
      · subst hc
        have hm := ih hl
        generalize matchRest want j = x at hm
        cases hm with
        | full hl' hk => exact .full hl' (congrArg (c :: ·) hk)
        | cutShort stop hl' hk hp hne =>
          refine .cutShort stop (hl'.unread c) (congrArg (c :: ·) hk) ?_ ?_
          · exact List.cons_prefix_cons.2 ⟨rfl, hp⟩
          · exact fun he => hne (List.cons.inj he).2
        | differs hl' hk hp hp' =>
          refine .differs (hl'.unread c) (congrArg (c :: ·) hk) ?_ ?_
          · exact fun hx => hp (List.cons_prefix_cons.1 hx).2
          · exact fun hx => hp' (List.cons_prefix_cons.1 hx).2
      · refine .differs (hl.unread c) rfl ?_ ?_
        · exact fun hx => hc (List.cons_prefix_cons.1 hx).1.symm
        · exact fun hx => hc (List.cons_prefix_cons.1 hx).1

/-! ## The table -/

/-- One step through the table. -/
theorem dispatchFrom_cons (cx : Context) (start : Nat) (c : Char) (cut : CutShort) (e : Entry)
    (es : List Entry) (s : RunState) :
    dispatchFrom cx start c cut (e :: es) s =
      if e.first = c then
        match matchRest e.rest s.input with
        | (.error f, i) => (.error f, { s with input := i })
        | (.ok .full, i) =>
          ((e.directive.run cx e.sigil { s with input := i }).1.map fun _ => true,
            (e.directive.run cx e.sigil { s with input := i }).2)
        | (.ok .differs, i) => dispatchFrom cx start c cut es { s with input := i }
        | (.ok (.cutShort stop), i) =>
          dispatchFrom cx start c (cut.or (some (e.sigil, stop))) es { s with input := i }
      else dispatchFrom cx start c cut es s := by
  rw [dispatchFrom]
  split_ifs
  · rw [Run.bind_apply, Run.onInput_apply]
    rcases matchRest e.rest s.input with ⟨f | m, i⟩
    · rfl
    · cases m with
      | full => exact Run.bind_pure_apply (e.directive.run cx e.sigil) (fun _ => true) _
      | differs => rfl
      | cutShort stop => rfl
  · rfl

/-! ## Directives and plain text -/

/-- What a part of a run shows agrees with what is said of plain text. -/
inductive Follows : Except Failure Unit × RunState →
    Except Complaint (List Char) × Registry × Sink → Prop
  | ok {t : RunState} (h : t.input.Legible) :
    Follows (.ok (), t) (.ok t.input.remaining, t.registry, t.sink)
  | error (f : Failure) (t : RunState) :
    Follows (.error f, t) (.error f.complaint, t.registry, t.sink)

/-- An entry does what a plain one says, on every input that can be read. -/
structure Implements (cx : Context) (e : Entry) (p : Plain.Entry) : Prop where
  first : e.first = p.first
  rest : e.rest = p.rest
  follows : ∀ s : RunState, s.input.Legible →
    Follows (e.directive.run cx e.sigil s) (p.react cx s.input.remaining s.registry s.sink)

theorem Implements.sigil {cx : Context} {e : Entry} {p : Plain.Entry} (h : Implements cx e p) :
    e.sigil = String.ofList p.sigil := by
  rw [Entry.sigil, Plain.Entry.sigil, h.first, h.rest]

/-- The first sigil inside which the text `r` ends, behind one that is already known. -/
def firstCut (cut : CutShort) (table : List Plain.Entry) (r : List Char) : Option String :=
  (cut.map Prod.fst).or ((table.find? (·.IsCut r)).map fun p => String.ofList p.sigil)

/-- The outcome of trying a table at the text `c :: r`. -/
inductive Dispatched (cx : Context) (cut : CutShort) (table : List Plain.Entry) (c : Char)
    (r : List Char) (registry : Registry) (sink : Sink) : Except Failure Bool × RunState → Prop
  | ran {p : Plain.Entry} {x : Except Failure Unit × RunState}
    (hp : table.find? (·.Stands (c :: r)) = some p)
    (hx : Follows x (p.react cx (p.behind (c :: r)) registry sink)) :
    Dispatched cx cut table c r registry sink (x.1.map fun _ => true, x.2)
  | cutShort {sigil : String} {f : Failure} (i : Input)
    (hp : table.find? (·.Stands (c :: r)) = none) (hc : firstCut cut table (c :: r) = some sigil)
    (hf : f.fault = .sigilCutShort sigil) :
    Dispatched cx cut table c r registry sink (.error f, ⟨i, registry, sink⟩)
  | nothing {i : Input} (hp : table.find? (·.Stands (c :: r)) = none)
    (hc : firstCut cut table (c :: r) = none) (hl : i.Legible) (hr : i.remaining = r) :
    Dispatched cx cut table c r registry sink (.ok false, ⟨i, registry, sink⟩)

/-- An entry whose sigil does not stand there is passed over. -/
theorem Dispatched.cons {cx : Context} {cut cut' : CutShort} {p : Plain.Entry}
    {table : List Plain.Entry} {c : Char} {r : List Char} {registry : Registry} {sink : Sink}
    {x : Except Failure Bool × RunState} (h : Dispatched cx cut' table c r registry sink x)
    (hs : ¬ p.Stands (c :: r))
    (hcut : firstCut cut' table (c :: r) = firstCut cut (p :: table) (c :: r)) :
    Dispatched cx cut (p :: table) c r registry sink x := by
  have hf : (p :: table).find? (·.Stands (c :: r)) = table.find? (·.Stands (c :: r)) :=
    List.find?_cons_of_neg (by simpa using hs)
  cases h with
  | ran hp hx => exact .ran (hf.trans hp) hx
  | cutShort i hp hc hfault => exact .cutShort i (hf.trans hp) (hcut ▸ hc) hfault
  | nothing hp hc hl hr => exact .nothing (hf.trans hp) (hcut ▸ hc) hl hr

end Sigil
