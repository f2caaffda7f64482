import Sigil.Proofs.Forms

/-!
# Recording steps

An expansion adds to its record and never reads it (`Expanding.Logs`): whatever the record holds,
the same steps come behind it and the result is the same, also without a record.  So the result and
the steps of a sequence are found part by part (`Logs.traced_bind`), and it does not show in the
result whether steps are recorded (`Registry.expandTraced_fst`).

`Expansion.records_expandWith` says which steps there are: replacements of atoms, and calls with what
their macros make of the expanded arguments.
-/

namespace Sigil

/-! ## Computations with a record -/

/-- Whatever the record holds, the computation puts its own steps behind it and has its own
result. -/
def Expanding.Logs {α : Type} (x : Expanding α) : Prop :=
  ∀ steps, x steps = (x.traced.1, steps.map (· ++ x.traced.2.toArray))

/-- The computation records steps with the property `P` only. -/
structure Expanding.Records {α : Type} (P : Step → Prop) (x : Expanding α) : Prop where
  logs : Logs x
  steps : ∀ step ∈ x.traced.2, P step

namespace Expanding

variable {α β : Type} {P : Step → Prop}

theorem traced_of_forall {x : Expanding α} {y : Except Failure α} {l : List Step}
    (h : ∀ steps, x steps = (y, steps.map (· ++ l.toArray))) : x.traced = (y, l) := by
  unfold traced
  rw [h (some #[])]
  simp only [Option.map_some, Option.getD_some, Array.toList_append, List.nil_append]

theorem logs_of_forall {x : Expanding α} {y : Except Failure α} {l : List Step}
    (h : ∀ steps, x steps = (y, steps.map (· ++ l.toArray))) : Logs x := by
  intro steps
  rw [traced_of_forall h]
  exact h steps

/-- A computation that leaves the record alone. -/
theorem mk_apply (y : Except Failure α) (steps : Option (Array Step)) :
    (ExceptT.mk (pure y) : Expanding α) steps = (y, steps.map (· ++ [].toArray)) := by
  cases steps <;> simp only [Option.map_none, Option.map_some, Array.append_empty] <;> rfl

theorem traced_mk (y : Except Failure α) : traced (ExceptT.mk (pure y)) = (y, []) :=
  traced_of_forall (mk_apply y)

theorem traced_pure (a : α) : traced (pure a) = (.ok a, []) := traced_mk (.ok a)

theorem logs_mk (y : Except Failure α) : Logs (ExceptT.mk (pure y)) := logs_of_forall (mk_apply y)

theorem records_mk (y : Except Failure α) : Records P (ExceptT.mk (pure y)) := by
  refine ⟨logs_mk y, fun step h => ?_⟩
  rw [traced_mk] at h
  cases h

theorem records_pure (a : α) : Records P (pure a) := records_mk (.ok a)

theorem record_apply (step : Step) (steps : Option (Array Step)) :
    Expansion.record step steps = (.ok (), steps.map (· ++ [step].toArray)) := by
  cases steps with
  | none => rfl
  | some a => exact congrArg (fun b => (Except.ok (), some b)) Array.push_eq_append

theorem traced_record (step : Step) : traced (Expansion.record step) = (.ok (), [step]) :=
  traced_of_forall (record_apply step)

theorem logs_record (step : Step) : Logs (Expansion.record step) :=
  logs_of_forall (record_apply step)

theorem records_record {step : Step} (h : P step) : Records P (Expansion.record step) := by
  refine ⟨logs_record step, fun step' h' => ?_⟩
  rw [traced_record, List.mem_singleton] at h'
  exact h' ▸ h

theorem Logs.result {x : Expanding α} (hx : Logs x) : x.result = x.traced.1 := by
  rw [Expanding.result, hx none]

/-- A result and its steps, followed by what comes of the result. -/
def andThen (x : Except Failure α × List Step) (f : α → Except Failure β × List Step) :
    Except Failure β × List Step :=
  match x with
  | (.error e, l) => (.error e, l)
  | (.ok a, l) => ((f a).1, l ++ (f a).2)

section Sequencing

variable {x : Expanding α} {f : α → Expanding β}

theorem Logs.bind_apply (hx : Logs x) (hf : ∀ a, x.traced.1 = .ok a → Logs (f a))
    (steps : Option (Array Step)) :
    (x >>= f) steps = ((andThen x.traced fun a => (f a).traced).1,
      steps.map (· ++ (andThen x.traced fun a => (f a).traced).2.toArray)) := by
  rw [Sigil.bind_apply, hx steps]
  generalize x.traced = y at hf
  rcases y with ⟨e | a, l⟩
  · rfl
  · dsimp only [andThen]
    rw [hf a rfl]
    cases steps with
    | none => rfl
    | some b => simp only [Option.map_some, Array.append_assoc, List.append_toArray]

/-- **Sequencing.** -/
theorem Logs.traced_bind (hx : Logs x) (hf : ∀ a, x.traced.1 = .ok a → Logs (f a)) :
    (x >>= f).traced = andThen x.traced fun a => (f a).traced :=
  traced_of_forall (hx.bind_apply hf)

theorem Records.bind (hx : Records P x) (hf : ∀ a, x.traced.1 = .ok a → Records P (f a)) :
    Records P (x >>= f) := by
  have hlogs : ∀ a, x.traced.1 = .ok a → Logs (f a) := fun a ha => (hf a ha).logs
  refine ⟨logs_of_forall (hx.logs.bind_apply hlogs), fun step hstep => ?_⟩
  rw [hx.logs.traced_bind hlogs] at hstep
  have hsteps := hx.steps
  generalize x.traced = y at hf hstep hsteps
  rcases y with ⟨e | a, l⟩
  · exact hsteps step hstep
  · rcases List.mem_append.1 hstep with hl | hl
    · exact hsteps step hl
    · exact (hf a rfl).steps step hl

end Sequencing

end Expanding

/-! ## Expansion -/

namespace Expansion

open Expanding

/-- The step of a call that is replaced by `produced`. -/
def callStep (head : String) (args : List Expr) (produced : Expr) : Step :=
  ⟨head, .function, .list (.atom head :: args), produced⟩

/-- The step of an atom that is replaced by `e`. -/
def symbolStep (name : String) (e : Expr) : Step := ⟨name, .symbol, .atom name, e⟩

section

variable {r : Registry} {s : Settings} {P : Step → Prop}

/-- Replacements and calls have the property `P` where `again` expands what a macro produced. -/
structure Recordable (r : Registry) (s : Settings) (P : Step → Prop)
    (again : Option (Expr → Expanding Expr)) : Prop where
  symbol : ∀ name e, r.symbols.get? name = some e → P (symbolStep name e)
  call : ∀ head m args expanded produced, r.macros.get? head = some m →
    (expandEach r s again args).traced.1 = .ok expanded → m.transform expanded = .ok produced →
    P (callStep head args produced)

variable {again : Option (Expr → Expanding Expr)}

mutual

/-- **Expanding.**  An expansion records replacements, calls, and what is recorded when a macro's
product is expanded. -/
theorem records_expandWith (hP : Recordable r s P again)
    (ha : ∀ f, again = some f → ∀ e, Records P (f e)) : (e : Expr) →
    Records P (expandWith r s again e)
  | .str text => by
    rw [expandWith_str]
    exact records_pure _
  | .atom name => by
    rw [expandWith_atom]
    cases hg : r.symbols.get? name with
    | none => exact records_pure _
    | some e => exact (records_record (hP.symbol name e hg)).bind fun _ _ => records_pure _
  | .list [] => by
    rw [expandWith_nil]
    exact records_pure _
  | .list (e :: es) => by
    have heach := records_expandEach hP ha es
    cases hm : r.called? (.list (e :: es)) with
    | none =>
      rw [expandWith_rebuild s hm]
      exact (records_expandWith hP ha e).bind fun _ _ => heach.bind fun _ _ => records_pure _
    | some m =>
      obtain ⟨head, rfl, hm⟩ := Registry.exists_of_called? hm
      rw [expandWith_call s es hm]
      cases again with
      | none => exact records_mk _
      | some f =>
        refine heach.bind fun expanded hexpanded =>
          (records_mk _).bind fun produced hproduced => ?_
        rw [traced_mk] at hproduced
        have hstep := hP.call head m es expanded produced hm hexpanded hproduced
        refine (records_record hstep).bind fun _ _ => ?_
        split
        · exact ha f rfl produced
        · exact records_pure _

theorem records_expandEach (hP : Recordable r s P again)
    (ha : ∀ f, again = some f → ∀ e, Records P (f e)) : (es : List Expr) →
    Records P (expandEach r s again es)
  | [] => by
    rw [expandEach_nil]
    exact records_pure _
  | e :: es => by
    rw [expandEach_cons]
    exact (records_expandWith hP ha e).bind fun _ _ =>
      (records_expandEach hP ha es).bind fun _ _ => records_pure _

end

/-- What a macro produced is expanded with one application less. -/
theorem records_again? {n : Nat} (hP : ∀ k < n, Recordable r s P (again? r s k))
    (f : Expr → Expanding Expr) (hf : again? r s n = some f) (e : Expr) : Records P (f e) := by
  induction n generalizing f e with
  | zero => cases hf
  | succ n ih =>
    cases hf
    exact records_expandWith (hP n (Nat.lt_succ_self n))
      (ih fun k hk => hP k (Nat.lt_succ_of_lt hk)) e

theorem recordable_true (again : Option (Expr → Expanding Expr)) :
    Recordable r s (fun _ => True) again :=
  ⟨fun _ _ _ => trivial, fun _ _ _ _ _ _ _ _ => trivial⟩

theorem logs_expandWith (n : Nat) (e : Expr) : Logs (expandWith r s (again? r s n) e) :=
  (records_expandWith (recordable_true _) (records_again? fun _ _ => recordable_true _) e).logs

theorem logs_expandEach (n : Nat) (es : List Expr) : Logs (expandEach r s (again? r s n) es) :=
  (records_expandEach (recordable_true _) (records_again? fun _ _ => recordable_true _) es).logs

end

end Expansion

/-- **Recording** does not show in the result of an expansion. -/
theorem Registry.expandTraced_fst (r : Registry) (s : Settings) (e : Expr) :
    (r.expandTraced s e).1 = r.expand s e :=
  (Expansion.logs_expandWith s.maxDepth e).result.symm

end Sigil
