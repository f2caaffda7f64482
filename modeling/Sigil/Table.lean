/-!
# Tables

Bindings of names, in the order of the names.  Names are ordered by code points, which is also the
order of their UTF-8 bytes.  A table is determined by what it binds (`Table.ext_get?`), so equality
of tables is equality of bindings.

`Table.shadow` binds names for a while and `Table.unshadow` undoes it: the earlier values are put
back in the reverse order, so a name that was bound twice gets its first value back.
-/

namespace Sigil

/-- Bindings of names, in order. -/
structure Table (α : Type) where
  entries : List (String × α)
  sorted : entries.Pairwise (fun a b => a.1 < b.1)

namespace Table

variable {α : Type}

/-- The table without bindings. -/
def empty : Table α := ⟨[], .nil⟩

instance : Inhabited (Table α) := ⟨empty⟩

/-- A table without bindings. -/
def isEmpty (t : Table α) : Bool := t.entries.isEmpty

/-- The bound names, in order. -/
def names (t : Table α) : List String := t.entries.map (·.1)

/-- The value of a name. -/
def get? (t : Table α) (name : String) : Option α := t.entries.lookup name

/-! ## Changing a binding -/

/-- Puts a binding in its place among ordered ones. -/
def insertEntry (name : String) (value : α) : List (String × α) → List (String × α)
  | [] => [(name, value)]
  | (k, v) :: r =>
    if name < k then (name, value) :: (k, v) :: r
    else if name = k then (name, value) :: r
    else (k, v) :: insertEntry name value r

theorem mem_insertEntry {name : String} {value : α} {es : List (String × α)} {e : String × α}
    (h : e ∈ insertEntry name value es) : e = (name, value) ∨ e ∈ es := by
  induction es with
  | nil => simpa [insertEntry] using h
  | cons p r ih =>
    simp only [insertEntry] at h
    split at h
    · simpa using h
    · split at h
      · rcases List.mem_cons.1 h with h | h
        · exact .inl h
        · exact .inr (List.mem_cons_of_mem _ h)
      · rcases List.mem_cons.1 h with h | h
        · exact .inr (h ▸ List.mem_cons_self ..)
        · exact (ih h).imp_right (List.mem_cons_of_mem _)

theorem lt_of_not_lt_of_ne {a b : String} (h : ¬ a < b) (hne : a ≠ b) : b < a := by
  rcases Decidable.em (b < a) with hb | hb
  · exact hb
  · exact absurd (String.le_antisymm (String.not_lt.1 hb) (String.not_lt.1 h)) hne

theorem sorted_insertEntry (name : String) (value : α) {es : List (String × α)}
    (h : es.Pairwise (fun a b => a.1 < b.1)) :
    (insertEntry name value es).Pairwise (fun a b => a.1 < b.1) := by
  induction es with
  | nil => simp [insertEntry]
  | cons p r ih =>
    obtain ⟨hp, hr⟩ := List.pairwise_cons.1 h
    simp only [insertEntry]
    split
    · next hlt =>
      refine List.pairwise_cons.2 ⟨fun e he => ?_, h⟩
      rcases List.mem_cons.1 he with rfl | he
      · exact hlt
      · exact String.lt_trans hlt (hp e he)
    · next hnlt =>
      split
      · next heq => exact List.pairwise_cons.2 ⟨fun e he => heq ▸ hp e he, hr⟩
      · next hne =>
        refine List.pairwise_cons.2 ⟨fun e he => ?_, ih hr⟩
        rcases mem_insertEntry he with rfl | he
        · exact lt_of_not_lt_of_ne hnlt hne
        · exact hp e he

/-- The table with `name` bound to `value`. -/
def insert (t : Table α) (name : String) (value : α) : Table α :=
  ⟨insertEntry name value t.entries, sorted_insertEntry name value t.sorted⟩

/-- The table without a binding of `name`. -/
def erase (t : Table α) (name : String) : Table α :=
  ⟨t.entries.filter (·.1 != name), t.sorted.filter _⟩

/-- The table with `name` bound to `value`, or not bound. -/
def set (t : Table α) (name : String) : Option α → Table α
  | some value => t.insert name value
  | none => t.erase name

/-! ## Lookup after a change -/

@[simp] theorem get?_empty (name : String) : (empty : Table α).get? name = none := rfl

theorem lookup_insertEntry (name : String) (value : α) (es : List (String × α)) (other : String) :
    (insertEntry name value es).lookup other
      = if other = name then some value else es.lookup other := by
  induction es with
  | nil =>
    by_cases h : other = name <;> simp [insertEntry, List.lookup_cons, h]
    simp [beq_eq_false_iff_ne.2 h]
  | cons p r ih =>
    obtain ⟨k, v⟩ := p
    simp only [insertEntry]
    split
    · by_cases h : other = name
      · simp [h]
      · simp [List.lookup_cons, h, beq_eq_false_iff_ne.2 h]
    · split
      · next hk =>
        subst hk
        by_cases h : other = name
        · simp [h]
        · simp [List.lookup_cons, h, beq_eq_false_iff_ne.2 h]
      · next hk =>
        by_cases h : other = k
        · subst h
          simp [Ne.symm hk]
        · simp [List.lookup_cons, beq_eq_false_iff_ne.2 h, ih]

@[simp] theorem get?_insert (t : Table α) (name : String) (value : α) (other : String) :
    (t.insert name value).get? other = if other = name then some value else t.get? other :=
  lookup_insertEntry name value t.entries other

theorem lookup_filter_ne (es : List (String × α)) (name other : String) :
    (es.filter (·.1 != name)).lookup other = if other = name then none else es.lookup other := by
  induction es with
  | nil => simp
  | cons p r ih =>
    obtain ⟨k, v⟩ := p
    by_cases hk : k = name
    · subst hk
      by_cases h : other = k
      · rw [if_pos h] at ih ⊢
        simpa using ih
      · simp [ih, h, List.lookup_cons, beq_eq_false_iff_ne.2 h]
    · by_cases h : other = k
      · subst h
        simp [hk]
      · simp [hk, List.lookup_cons, beq_eq_false_iff_ne.2 h, ih]

@[simp] theorem get?_erase (t : Table α) (name other : String) :
    (t.erase name).get? other = if other = name then none else t.get? other :=
  lookup_filter_ne t.entries name other

@[simp] theorem get?_set (t : Table α) (name : String) (value : Option α) (other : String) :
    (t.set name value).get? other = if other = name then value else t.get? other := by
  cases value <;> simp [set]

/-! ## Extensionality -/

theorem lookup_eq_none_of_lt {es : List (String × α)} {name : String}
    (h : ∀ e ∈ es, name < e.1) : es.lookup name = none := by
  rw [List.lookup_eq_none_iff]
  intro e he
  have hne : name ≠ e.1 := fun heq => String.lt_irrefl _ (heq ▸ h e he)
  simpa using hne

theorem entries_ext {xs ys : List (String × α)} (hx : xs.Pairwise (fun a b => a.1 < b.1))
    (hy : ys.Pairwise (fun a b => a.1 < b.1)) (h : ∀ name, xs.lookup name = ys.lookup name) :
    xs = ys := by
  induction xs generalizing ys with
  | nil =>
    cases ys with
    | nil => rfl
    | cons q r => exact absurd (h q.1) (by simp [show q :: r = (q.1, q.2) :: r from rfl])
  | cons p r ih =>
    cases ys with
    | nil => exact absurd (h p.1) (by simp)
    | cons q r' =>
      obtain ⟨k, v⟩ := p
      obtain ⟨k', v'⟩ := q
      obtain ⟨hk, hr⟩ := List.pairwise_cons.1 hx
      obtain ⟨hk', hr'⟩ := List.pairwise_cons.1 hy
      have hkk : k = k' := by
        rcases Decidable.em (k < k') with hlt | hnlt
        · have hnone : List.lookup k ((k', v') :: r') = none :=
            lookup_eq_none_of_lt fun e he => by
              rcases List.mem_cons.1 he with rfl | he
              · exact hlt
              · exact String.lt_trans hlt (hk' e he)
          simpa [hnone] using h k
        · rcases Decidable.em (k = k') with heq | hne
          · exact heq
          · have hnone : List.lookup k' ((k, v) :: r) = none :=
              lookup_eq_none_of_lt fun e he => by
                rcases List.mem_cons.1 he with rfl | he
                · exact lt_of_not_lt_of_ne hnlt hne
                · exact String.lt_trans (lt_of_not_lt_of_ne hnlt hne) (hk e he)
            simpa [hnone] using (h k').symm
      subst hkk
      have hv : v = v' := by simpa using h k
      subst hv
      have hrest : r = r' := ih hr hr' fun name => by
        rcases Decidable.em (name = k) with rfl | hne
        · rw [lookup_eq_none_of_lt hk, lookup_eq_none_of_lt hk']
        · simpa [List.lookup_cons, beq_eq_false_iff_ne.2 hne] using h name
      rw [hrest]

/-- Tables with the same bindings are equal. -/
theorem ext_get? {s t : Table α} (h : ∀ name, s.get? name = t.get? name) : s = t := by
  obtain ⟨xs, hx⟩ := s
  obtain ⟨ys, hy⟩ := t
  have : xs = ys := entries_ext hx hy h
  subst this
  rfl

/-! ## Shadowing -/

/-- Binds names in turn.  With the new table comes what each name was bound to before its turn. -/
def shadow (t : Table α) : List (String × α) → List (String × Option α) × Table α
  | [] => ([], t)
  | (name, value) :: r =>
    let (saved, t') := (t.insert name value).shadow r
    ((name, t.get? name) :: saved, t')

/-- Puts saved bindings back, the last one first. -/
def unshadow (t : Table α) (saved : List (String × Option α)) : Table α :=
  saved.foldr (fun (name, value) t => t.set name value) t

end Table

end Sigil
