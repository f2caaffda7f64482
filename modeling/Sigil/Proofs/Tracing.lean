import Sigil.Proofs.Depth
import Sigil.Proofs.Recording

/-!
# Truthful traces

`Registry.expandTraced_truthful`: recording changes no result, and every recorded step can be
replayed, also the steps before a failure.  A step shows a call as it was written, but what its macro
made of the expanded arguments.  So the arguments have to be expanded once more, and that from the
start, while the call may have been met deep in a chain of applications: arguments that were
expanded with some applications left have the same expansions with all of them left
(`Expansion.expandAll_of_traced`).
-/

namespace Sigil

/-- What a step says is so: an atom was replaced by its replacement, or a call by what its macro
makes of its arguments, expanded under the same settings. -/
def Step.Truthful (r : Registry) (s : Settings) (step : Step) : Prop :=
  match step.kind with
  | .symbol => step.before = .atom step.name ∧ r.symbols.get? step.name = some step.after
  | .function => ∃ args m expanded, step.before = .list (.atom step.name :: args) ∧
      r.macros.get? step.name = some m ∧ r.expandAll s args = .ok expanded ∧
      m.transform expanded = .ok step.after

namespace Expansion

open Expanding

variable {r : Registry} {s : Settings} {n : Nat}

/-- **Arguments** have the same expansions from the start. -/
theorem expandAll_of_traced (hn : n ≤ s.maxDepth) {args expanded : List Expr}
    (h : (expandEach r s (again? r s n) args).traced.1 = .ok expanded) :
    r.expandAll s args = .ok expanded := by
  have hresult : (expandEach r s (again? r s n) args none).1 = .ok expanded :=
    (logs_expandEach n args).result.trans h
  rcases keptBy_expandEach rfl (againKept_again? (r := r) (s := s) rfl hn) args none with
    ⟨f, hf, -⟩ | he
  · -- what succeeded did not run into the limit
    rw [hresult] at hf
    cases hf
  · exact (congrArg Prod.fst he).symm.trans hresult

/-- **Steps.**  With up to all applications left, what is recorded is so. -/
theorem recordable_truthful (hn : n ≤ s.maxDepth) :
    Recordable r s (Step.Truthful r s) (again? r s n) where
  symbol _ _ hg := ⟨rfl, hg⟩
  call _ m args expanded _ hm hexpanded hproduced :=
    ⟨args, m, expanded, rfl, hm, expandAll_of_traced hn hexpanded, hproduced⟩

end Expansion

/-- **Traces.**  An expansion has the same result with and without a record, and what its record
says is so: each step is an atom with its replacement, or a call with what its macro makes of the
arguments when they are expanded on their own. -/
theorem Registry.expandTraced_truthful (r : Registry) (s : Settings) (e : Expr) :
    (r.expandTraced s e).1 = r.expand s e ∧
      ∀ step ∈ (r.expandTraced s e).2, step.Truthful r s := by
  refine ⟨r.expandTraced_fst s e, ?_⟩
  have hrecords : Expanding.Records (Step.Truthful r s) (Expansion.expand r s e) :=
    Expansion.records_expandWith (Expansion.recordable_truthful le_rfl)
      (Expansion.records_again? fun k hk => Expansion.recordable_truthful (Nat.le_of_lt hk)) e
  exact hrecords.steps

end Sigil
