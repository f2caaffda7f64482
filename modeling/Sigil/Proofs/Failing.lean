import Sigil.Proofs.Culprits
import Sigil.Proofs.Cutting

/-!
# How a table fails

`failing_dispatch`: trying a table of built-in sigils at a place of a text fails in one of three
ways (`Failing`).  The text ends inside a sigil, no expression can be read behind the sigil that
stands there, or its handler fails.

1. One try reads characters and gives them back; a sigil that is cut short has seen all of the text
   (`matchRest_cutShort`, `triedAt_matchRest`).
2. An entry whose sigil does not stand there is passed over (`Failing.cons`).
-/

namespace Sigil

open Input (byteLength)
open Datum (ReadAccuses)

/-! ## Sigils at a cursor -/

namespace Entry

/-- The sigil stands at the front of the text. -/
def Stands (e : Entry) (text : List Char) : Prop := e.sigil.toList <+: text

/-- The text ends inside the sigil. -/
def IsCut (e : Entry) (text : List Char) : Prop :=
  text <+: e.sigil.toList ∧ text ≠ e.sigil.toList

instance (e : Entry) (text : List Char) : Decidable (e.Stands text) :=
  inferInstanceAs (Decidable (_ <+: _))

instance (e : Entry) (text : List Char) : Decidable (e.IsCut text) :=
  inferInstanceAs (Decidable (_ ∧ _))

theorem toList_sigil (e : Entry) : e.sigil.toList = e.first :: e.rest := String.toList_ofList ..

theorem IsCut.not_stands {e : Entry} {text : List Char} (h : e.IsCut text) : ¬ e.Stands text :=
  fun hs => h.2 (h.1.eq_of_length_le hs.length_le)

end Entry

/-- Once all lines are pulled, they stay so. -/
theorem Input.Reaches.lines_eq_nil {i j : Input} {cs : List Char} (h : i.Reaches cs j)
    (hi : i.lines = []) : j.lines = [] := by
  induction h with
  | here => exact hi
  | @next cs j _ ih =>
    rcases hr : j.ready with _ | ⟨c, r⟩
    · rw [next_of_end hr ih]
      exact ih
    · rw [next_of_ready hr]
      exact ih
  | unread _ ih => exact ih

/-- A sigil that is cut short has seen all of the text. -/
theorem matchRest_cutShort {want : List Char} {i j : Input} {k : Cursor} {stop : Nat}
    (hi : i.At k) (h : matchRest want i = (.ok (.cutShort stop), j)) :
    j.lines = [] ∧ stop = byteLength (k.before ++ k.ahead) := by
  induction want generalizing i j k with
  | nil => cases h
  | cons w want ih =>
    obtain ⟨hc, hat⟩ := hi.next
    rw [matchRest] at h
    rcases hn : i.next with ⟨f | _ | c, i'⟩
    · rw [hn] at h
      cases h
    · rw [hn] at h hc hat
      cases h
      have hk : k.ahead = [] := List.head?_eq_none_iff.1 (Except.ok.inj hc).symm
      rw [Cursor.forward, hk] at hat
      refine ⟨(ready_of_remaining hat.legible (hat.remaining.trans hk)).2, ?_⟩
      rw [hat.offset, hk, List.append_nil]
    · rw [hn] at h hc hat
      have hk : k.ahead = c :: k.ahead.tail := List.eq_cons_of_mem_head? (Except.ok.inj hc).symm
      have htext : k.forward.before ++ k.forward.ahead = k.before ++ k.ahead :=
        Cursor.text_after (m := .next) trivial
      simp only at h
      split_ifs at h
      · rcases hm : matchRest want i' with ⟨f | m, i''⟩
        · rw [hm] at h
          cases h
        · rw [hm] at h
          cases m with
          | full => cases h
          | differs => cases h
          | cutShort stop' =>
            cases h
            obtain ⟨hlines, hstop⟩ := ih hat hm
            exact ⟨hlines, hstop.trans (congrArg byteLength htext)⟩
      · cases h

/-- What trying the entry `e` at the text `c :: r` behind `P` comes to, from the input `i`. -/
inductive TriedAt (e : Entry) (P : List Char) (c : Char) (r : List Char) (i : Input) :
    Except Failure Match × Input → Prop
  | full {j : Input} {r' : List Char} (hr : c :: r = e.sigil.toList ++ r')
    (hj : j.At ⟨P, e.sigil.toList, r'⟩) : TriedAt e P c r i (.ok .full, j)
  | cutShort {j : Input} (hcut : e.IsCut (c :: r)) (hj : j.At ⟨P, [c], r⟩) (hlines : j.lines = []) :
    TriedAt e P c r i (.ok (.cutShort (byteLength (P ++ c :: r))), j)
  | differs {j : Input} (hs : ¬ e.Stands (c :: r)) (hcut : ¬ e.IsCut (c :: r))
    (hj : j.At ⟨P, [c], r⟩) (hlines : i.lines = [] → j.lines = []) :
    TriedAt e P c r i (.ok .differs, j)

/-- **One try** at a cursor. -/
theorem triedAt_matchRest {e : Entry} {P r : List Char} {c : Char} {i : Input}
    (hi : i.At ⟨P, [c], r⟩) (hc : e.first = c) : TriedAt e P c r i (matchRest e.rest i) := by
  have hsigil : e.sigil.toList = c :: e.rest := by rw [e.toList_sigil, hc]
  have hr : i.remaining = r := hi.remaining
  have hm := matches_matchRest e.rest hi.legible
  rw [hr] at hm
  obtain ⟨cs, hreach, hback⟩ := reaches_matchRest e.rest i
  obtain ⟨rest, hrest, hat⟩ := hreach.at_cursor hi
  dsimp only at hrest hat
  generalize hx : matchRest e.rest i = x at hm hreach hback hat
  cases hm with
  | @full j hj hfull =>
    have hjr : j.remaining = rest := hat.remaining
    have hcs : cs = e.rest := by
      rw [hjr, hrest] at hfull
      exact (List.append_cancel_right hfull).symm
    refine @TriedAt.full e P c r i j rest ?_ ?_
    · rw [hsigil, hrest, hcs]
      rfl
    · rw [hsigil, ← hcs]
      exact hat
  | @cutShort j stop hj hjr hpre hne =>
    obtain rfl := hback _ rfl (by simp)
    obtain rfl : r = rest := hrest
    obtain ⟨hlines, hstop⟩ := matchRest_cutShort hi hx
    obtain rfl : stop = byteLength (P ++ c :: r) := by
      rw [hstop, Cursor.before]
      simp
    refine .cutShort ?_ hat hlines
    rw [Entry.IsCut, hsigil, List.prefix_cons_inj]
    exact ⟨hpre, fun heq => hne (List.cons.inj heq).2⟩
  | @differs j hj hjr hn hn' =>
    obtain rfl := hback _ rfl (by simp)
    obtain rfl : r = rest := hrest
    refine .differs ?_ ?_ hat hreach.lines_eq_nil
    · rw [Entry.Stands, hsigil, List.prefix_cons_inj]
      exact hn
    · rw [Entry.IsCut, hsigil, List.prefix_cons_inj]
      exact fun hp => hn' hp.1

/-- The first sigil inside which the text ends, behind one that is already known. -/
def cutSigil? (cut : CutShort) (table : List Entry) (text : List Char) : Option String :=
  (cut.map Prod.fst).or ((table.find? (·.IsCut text)).map Entry.sigil)

theorem cutSigil?_cons_of_not {e : Entry} {text : List Char} (h : ¬ e.IsCut text) (cut : CutShort)
    (table : List Entry) : cutSigil? cut table text = cutSigil? cut (e :: table) text := by
  unfold cutSigil?
  rw [List.find?_cons_of_neg (by simpa using h)]

theorem cutSigil?_cons {e : Entry} {text : List Char} (h : e.IsCut text) (cut : CutShort)
    (stop : Nat) (table : List Entry) :
    cutSigil? (cut.or (some (e.sigil, stop))) table text = cutSigil? cut (e :: table) text := by
  unfold cutSigil?
  rw [List.find?_cons_of_pos (by simpa using h)]
  cases cut <;> rfl

/-- At the front of the text a sigil stands with the handler `h`, and behind it the expression `x`
is read. -/
def Performs (cx : Context) (table : List Entry) (text : List Char) (h : Handler) (x : Expr) :
    Prop :=
  ∃ e behind rest, table.find? (·.Stands text) = some e ∧ e.directive = h.directive ∧
    text = e.sigil.toList ++ behind ∧
    Datum.Plain.read (h.casing cx.settings) behind = .ok (x, rest)

/-- How trying a table at the text `c :: r` behind `P` fails: a sigil is cut short, no expression
can be read behind the one that stands there, or its handler fails. -/
inductive Failing (cx : Context) (cut : CutShort) (table : List Entry) (P : List Char) (c : Char)
    (r : List Char) (registry : Registry) (sink : Sink) (f : Failure) (k : Input) : Prop
  | cutShort {sigil : String} (hnone : table.find? (·.Stands (c :: r)) = none)
    (hsigil : cutSigil? cut table (c :: r) = some sigil)
    (hk : k.At ⟨P, [c], r⟩) (hlines : k.lines = [])
    (hf : f = .located (.sigilCutShort sigil) k.source
      (k.span (byteLength P) (byteLength (P ++ c :: r))))
  | reading {e : Entry} {r' : List Char} (hfind : table.find? (·.Stands (c :: r)) = some e)
    (hr : c :: r = e.sigil.toList ++ r') (ha : ReadAccuses P e.sigil.toList r' f k)
  | performing {h : Handler} {x : Expr} (hx : Performs cx table (c :: r) h x)
    (hf : (h.effect cx x registry sink).1 = .error f)

/-- An entry whose sigil does not stand there is passed over. -/
theorem Failing.cons {cx : Context} {cut cut' : CutShort} {e : Entry} {table : List Entry}
    {P : List Char} {c : Char} {r : List Char} {registry : Registry} {sink : Sink} {f : Failure}
    {k : Input} (h : Failing cx cut' table P c r registry sink f k) (hs : ¬ e.Stands (c :: r))
    (hcut : cutSigil? cut' table (c :: r) = cutSigil? cut (e :: table) (c :: r)) :
    Failing cx cut (e :: table) P c r registry sink f k := by
  have hfind : (e :: table).find? (·.Stands (c :: r)) = table.find? (·.Stands (c :: r)) :=
    List.find?_cons_of_neg (by simpa using hs)
  cases h with
  | cutShort hnone hsigil hk hlines hf =>
    exact .cutShort (hfind.trans hnone) (hcut.symm.trans hsigil) hk hlines hf
  | reading he hr ha => exact .reading (hfind.trans he) hr ha
  | performing hx hf =>
    obtain ⟨e', behind, rest, he, hx⟩ := hx
    exact .performing ⟨e', behind, rest, hfind.trans he, hx⟩ hf

/-- **Trying a table** that fails. -/
theorem failing_dispatchFrom {cx : Context} {table : List Entry} (hb : ∀ e ∈ table, e.BuiltIn)
    {P : List Char} {c : Char} {r : List Char} {cut : CutShort} {s t : RunState} {f : Failure}
    (hs : s.input.At ⟨P, [c], r⟩)
    (hcut : ∀ x, cut = some x → s.input.lines = [] ∧ x.2 = byteLength (P ++ c :: r))
    (hf : dispatchFrom cx (byteLength P) c cut table s = (.error f, t)) :
    Failing cx cut table P c r s.registry s.sink f t.input := by
  -- a sigil that was cut short has pulled all lines, and later tries cannot undo that
  induction table generalizing cut s with
  | nil =>
    rcases cut with _ | ⟨sigil, stop⟩
    · cases hf
    · obtain ⟨hlines, rfl⟩ := hcut (sigil, stop) rfl
      cases hf
      exact .cutShort rfl rfl hs hlines rfl
  | cons e es ih =>
    obtain ⟨⟨h, hd⟩, hbs⟩ := List.forall_mem_cons.1 hb
    rw [dispatchFrom_cons] at hf
    split_ifs at hf with hc
    · have htried := triedAt_matchRest hs hc
      generalize matchRest e.rest s.input = x at htried hf
      cases htried with
      | @full j r' hr hj =>
        have hfind : (e :: es).find? (·.Stands (c :: r)) = some e :=
          List.find?_cons_of_pos (decide_eq_true ⟨r', hr.symm⟩)
        dsimp only at hf
        rw [hd, h.directive_apply] at hf
        dsimp only at hf
        rcases hread : Datum.read (h.casing cx.settings) j with ⟨f' | x, k⟩
        · rw [hread] at hf
          cases hf
          exact .reading hfind hr (Datum.accuses_read hj hread)
        · rw [hread] at hf
          dsimp only at hf
          have hplain := Datum.agrees_read (h.casing cx.settings) hj.legible
          rw [hread, show j.remaining = r' from hj.remaining] at hplain
          refine .performing ⟨e, r', k.remaining, hfind, hd, hr, hplain.of_ok.1⟩ ?_
          generalize (h.effect cx x s.registry s.sink).1 = y at hf ⊢
          cases y with
          | error f' =>
            cases hf
            rfl
          | ok _ => cases hf
      | @cutShort j hiscut hj hlines =>
        have hcut' : ∀ x, cut.or (some (e.sigil, byteLength (P ++ c :: r))) = some x →
            j.lines = [] ∧ x.2 = byteLength (P ++ c :: r) := by
          intro x hx
          cases cut with
          | none =>
            cases hx
            exact ⟨hlines, rfl⟩
          | some y =>
            cases hx
            exact ⟨hlines, (hcut _ rfl).2⟩
        exact (ih hbs (s := { s with input := j }) hj hcut' hf).cons hiscut.not_stands
          (cutSigil?_cons hiscut cut _ es)
      | @differs j hstands hiscut hj hlines =>
        have hcut' : ∀ x, cut = some x → j.lines = [] ∧ x.2 = byteLength (P ++ c :: r) :=
          fun x hx => ⟨hlines (hcut x hx).1, (hcut x hx).2⟩
        exact (ih hbs (s := { s with input := j }) hj hcut' hf).cons hstands
          (cutSigil?_cons_of_not hiscut cut es)
    · -- the sigil starts with another character
      have hstands : ¬ e.Stands (c :: r) := by
        rw [Entry.Stands, e.toList_sigil]
        exact fun hp => hc (List.cons_prefix_cons.1 hp).1
      have hiscut : ¬ e.IsCut (c :: r) := by
        rw [Entry.IsCut, e.toList_sigil]
        exact fun hp => hc (List.cons_prefix_cons.1 hp.1).1.symm
      exact (ih hbs hs hcut hf).cons hstands (cutSigil?_cons_of_not hiscut cut es)

theorem failing_dispatch {cx : Context} {table : List Entry} (hb : ∀ e ∈ table, e.BuiltIn)
    {P : List Char} {c : Char} {r : List Char} {s t : RunState} {f : Failure}
    (hs : s.input.At ⟨P, [c], r⟩) (hf : dispatch cx table c s = (.error f, t)) :
    Failing cx none table P c r s.registry s.sink f t.input := by
  have hstart : s.input.behind c = byteLength P := by
    have hbehind := Datum.behind_at (R := []) (u := []) hs
    rwa [List.append_nil, List.append_nil] at hbehind
  rw [dispatch, Run.bind_apply] at hf
  refine failing_dispatchFrom hb hs (by simp) ?_
  rw [← hstart]
  exact hf

end Sigil
