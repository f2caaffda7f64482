import Sigil.Proofs.Cutting

/-!
# Where output goes

`Processor.process_delivers`: a document is processed in the same way wherever its output goes.  All
of the output is one text, which a sink takes or turns down; only then does the sink matter.

1. A handler knows what it writes before it looks at the sink (`Handler.effect_eq_emitted`), and so
   does a round of a document (`exists_round`).
2. Texts that are written in turn are one text (`Sink.emit_append`), so the rounds of a document
   deliver one text into any sink (`exists_delivered`).
3. A device takes a text as far as it has room for its bytes (`Sink.emit_device_of_le`,
   `Sink.emit_device_of_lt`).
-/

namespace Sigil

/-! ## Handlers -/

/-- What a handler makes of an expression: the text that it writes, and the macros it leaves. -/
def Handler.yield (h : Handler) (cx : Context) (e : Expr) (registry : Registry) :
    Except Failure String × Registry :=
  match h with
  | .printExpanded => ((registry.expand cx.settings e).map Expr.printed, registry)
  | .evaluateSilently => ((cx.host e registry).1.map fun _ => "", (cx.host e registry).2)
  | .renderEvaluated =>
    match cx.host e registry with
    | (.error f, registry) => (.error f, registry)
    | (.ok value, registry) => (registry.render cx.settings value, registry)
  | .renderExpanded =>
    ((registry.expand cx.settings e).bind (registry.render cx.settings), registry)

/-- A handler writes what it yields, and does nothing else with the sink. -/
theorem Handler.effect_eq_emitted (h : Handler) (cx : Context) (e : Expr) (registry : Registry)
    (sink : Sink) :
    h.effect cx e registry sink =
      sink.emitted (h.yield cx e registry).2 (h.yield cx e registry).1 := by
  cases h with
  | printExpanded => rfl
  | evaluateSilently =>
    simp only [effect, yield]
    rcases cx.host e registry with ⟨f | value, registry'⟩
    · rfl
    · -- nothing is written
      simp only [Except.map, Sink.emitted, Sink.emit_empty]
  | renderEvaluated =>
    simp only [effect, yield]
    rcases cx.host e registry with ⟨f | value, registry'⟩ <;> rfl
  | renderExpanded => rfl

/-! ## Rounds -/

/-- What trying a table comes to: a failure, no sigil, or a text to write. -/
abbrev Attempt := Except Failure (Option String)

/-- An attempt, carried out with a sink. -/
def Attempt.into (i : Input) (registry : Registry) (sink : Sink) :
    Attempt → Except Failure Bool × RunState
  | .error f => (.error f, ⟨i, registry, sink⟩)
  | .ok none => (.ok false, ⟨i, registry, sink⟩)
  | .ok (some text) => ((sink.emit text).1.map fun _ => true, ⟨i, registry, (sink.emit text).2⟩)

theorem exists_attempt (cx : Context) {table : List Entry} (hb : ∀ e ∈ table, e.BuiltIn)
    (start : Nat) (c : Char) (cut : CutShort) (i : Input) (registry : Registry) :
    ∃ (a : Attempt) (j : Input) (registry' : Registry), ∀ sink,
      dispatchFrom cx start c cut table ⟨i, registry, sink⟩ = a.into j registry' sink := by
  induction table generalizing cut i with
  | nil =>
    rcases cut with _ | ⟨sigil, stop⟩
    · exact ⟨.ok none, i, registry, fun _ => rfl⟩
    · let f : Failure := .located (.sigilCutShort sigil) i.source (i.span start stop)
      exact ⟨.error f, i, registry, fun _ => rfl⟩
  | cons e es ih =>
    obtain ⟨⟨h, hd⟩, hbs⟩ := List.forall_mem_cons.1 hb
    simp only [dispatchFrom_cons]
    by_cases hc : e.first = c
    · simp only [if_pos hc]
      rcases matchRest e.rest i with ⟨f | m, j⟩
      · exact ⟨.error f, j, registry, fun _ => rfl⟩
      · cases m with
        | full =>
          simp only [hd, h.directive_apply, h.effect_eq_emitted]
          rcases Datum.read (h.casing cx.settings) j with ⟨f | x, k⟩
          · exact ⟨.error f, k, registry, fun _ => rfl⟩
          · dsimp only
            rcases h.yield cx x registry with ⟨f | text, registry'⟩
            · exact ⟨.error f, k, registry', fun _ => rfl⟩
            · exact ⟨.ok (some text), k, registry', fun _ => rfl⟩
        | differs => exact ih hbs cut j
        | cutShort stop => exact ih hbs _ j
    · simp only [if_neg hc]
      exact ih hbs cut i

/-- What a round comes to: the document ends, it fails, or a text is written and it goes on. -/
inductive Round where
  | ends
  | fails (f : Failure)
  | writes (text : String)

/-- A round, carried out with a sink. -/
def Round.into (i : Input) (registry : Registry) (sink : Sink) :
    Round → (Except Failure Unit × RunState) ⊕ RunState
  | .ends => .inl (sink.flush, ⟨i, registry, sink⟩)
  | .fails f => .inl (.error f, ⟨i, registry, sink⟩)
  | .writes text =>
    match sink.emit text with
    | (.error f, sink) => .inl (.error f, ⟨i, registry, sink⟩)
    | (.ok (), sink) => .inr ⟨i, registry, sink⟩

/-- **One round** is the same for all sinks, up to what it writes. -/
theorem exists_round (cx : Context) {table : List Entry} (hb : ∀ e ∈ table, e.BuiltIn)
    (i : Input) (registry : Registry) :
    ∃ (x : Round) (j : Input) (registry' : Registry), ∀ sink,
      advance cx table ⟨i, registry, sink⟩ = x.into j registry' sink := by
  simp only [advance]
  rcases i.setMark.next with ⟨f | _ | c, j⟩
  · exact ⟨.fails f, j, registry, fun _ => rfl⟩
  · exact ⟨.ends, j, registry, fun _ => rfl⟩
  · obtain ⟨a, k, registry', ha⟩ := exists_attempt cx hb (j.behind c) c none j registry
    have hd : ∀ sink, dispatch cx table c ⟨j, registry, sink⟩ = a.into k registry' sink := by
      intro sink
      rw [dispatch, Run.bind_apply]
      exact ha sink
    simp only [hd]
    rcases a with f | _ | text
    · exact ⟨.fails f, k, registry', fun _ => rfl⟩
    · -- the character itself is written
      refine ⟨.writes (String.singleton c), k, registry', fun sink => ?_⟩
      rcases hemit : sink.emit (String.singleton c) with ⟨f | _, sink'⟩ <;>
        simp only [Attempt.into, settled, Round.into, Sink.emitChar, hemit]
    · refine ⟨.writes text, k, registry', fun sink => ?_⟩
      simp only [Attempt.into, Round.into]
      rcases sink.emit text with ⟨f | _, sink'⟩ <;> rfl

/-! ## Documents -/

/-- A run with the given result and the given output, carried out with a sink: the sink takes the
output, or the run fails as the sink does. -/
inductive Delivered (result : Except Failure Unit) (out : String) (i : Input) (registry : Registry)
    (sink : Sink) : Except Failure Unit × RunState → Prop
  | taken {sink' : Sink} (h : sink.emit out = (.ok (), sink')) :
    Delivered result out i registry sink (result.bind fun _ => sink'.flush, ⟨i, registry, sink'⟩)
  | refused {f : Failure} {t : RunState} (h : sink.emit out = (.error f, t.sink)) :
    Delivered result out i registry sink (.error f, t)

/-- **Rounds** deliver one text, the same for all sinks. -/
theorem exists_delivered (cx : Context) {table : List Entry} (hb : ∀ e ∈ table, e.BuiltIn)
    (i : Input) (registry : Registry) :
    ∃ (result : Except Failure Unit) (out : String) (j : Input) (registry' : Registry), ∀ sink,
      Delivered result out j registry' sink (processFrom cx table ⟨i, registry, sink⟩) := by
  -- the rounds are counted on a sink that never turns anything down
  induction hs : (⟨i, registry, .discard⟩ : RunState) using advance_induct cx hb
    generalizing i registry with
  | round s ih =>
    subst hs
    obtain ⟨x, j, registry', hx⟩ := exists_round cx hb i registry
    simp only [processFrom_advance cx table ⟨i, registry, _⟩, hx]
    cases x with
    | ends =>
      refine ⟨.ok (), "", j, registry', fun sink => ?_⟩
      exact .taken sink.emit_empty
    | fails f =>
      refine ⟨.error f, "", j, registry', fun sink => ?_⟩
      exact .taken sink.emit_empty
    | writes text =>
      obtain ⟨result, out, k, registry'', hd⟩ :=
        ih ⟨j, registry', .discard⟩ (hx .discard) j registry' rfl
      refine ⟨result, text ++ out, k, registry'', fun sink => ?_⟩
      have happend := sink.emit_append text out
      simp only [Round.into]
      rcases hemit : sink.emit text with ⟨f | _, sink'⟩ <;> rw [hemit] at happend
      · exact .refused happend
      · have hrest := hd sink'
        simp only [Sum.elim_inr]
        generalize processFrom cx table ⟨j, registry', sink'⟩ = y at hrest
        cases hrest with
        | taken h => exact .taken (happend.trans h)
        | refused h => exact .refused (happend.trans h)

/-! ## Devices -/

namespace Sink

/-- A device takes a text that fits. -/
theorem emit_device_of_le {d : Device} {text : String} (h : ∀ n ∈ d.room, text.toUTF8.size ≤ n) :
    ∃ d' : Device, (device d).emit text = (.ok (), device d') ∧
      d'.written = d.written ++ text.toUTF8 ∧ d'.flushFault = d.flushFault := by
  rcases d with ⟨written, _ | n, overflow, fault⟩
  · exact ⟨_, rfl, rfl, rfl⟩
  · have hn : text.toUTF8.size ≤ n := h n rfl
    rw [emit_device, Device.write]
    simp only [if_pos hn]
    exact ⟨_, rfl, rfl, rfl⟩

/-- Of a text that does not fit a device takes the bytes that do, and then fails. -/
theorem emit_device_of_lt {d : Device} {text : String} {n : Nat} (hroom : d.room = some n)
    (h : n < text.toUTF8.size) :
    ∃ d' : Device, (device d).emit text = (.error (.ofDevice d.overflow.reason), device d') ∧
      d'.written = d.written ++ text.toUTF8.extract 0 n := by
  have hn : ¬ text.toUTF8.size ≤ n := by omega
  rw [emit_device, Device.write, hroom]
  simp only [if_neg hn]
  exact ⟨_, rfl, rfl⟩

end Sink

namespace Delivered

variable {result : Except Failure Unit} {out : String} {i : Input} {registry : Registry}
  {sink : Sink} {x : Except Failure Unit × RunState}

/-- A sink that takes the output and can be flushed does not show. -/
theorem eq_of_emit (h : Delivered result out i registry sink x) {sink' : Sink}
    (he : sink.emit out = (.ok (), sink')) (hf : sink'.flush = .ok ()) :
    x = (result, ⟨i, registry, sink'⟩) := by
  cases h with
  | taken h =>
    cases he.symm.trans h
    rw [hf]
    cases result <;> rfl
  | refused h => cases he.symm.trans h

theorem eq_of_refused (h : Delivered result out i registry sink x) {f : Failure} {sink' : Sink}
    (he : sink.emit out = (.error f, sink')) : x.1 = .error f ∧ x.2.sink = sink' := by
  cases h with
  | taken h => cases he.symm.trans h
  | refused h =>
    cases he.symm.trans h
    exact ⟨rfl, rfl⟩

end Delivered

namespace Processor

/-- **Output has no influence.**  Let a document be processed into a text.  Without any output the
result and the macros are the same.  So they are with a device that has room for the text, and the
device gets its bytes.  A device with less room gets as many of them as fit, and the run ends with
its failure. -/
theorem process_delivers (p : Processor) (hb : ∀ e ∈ p.table, e.BuiltIn) (input : Input) :
    ∃ (result : Except Failure Unit) (out : String) (registry : Registry),
      (∃ i, p.process input (.text "") = (result, ⟨i, registry, .text out⟩)) ∧
      (∃ i, p.process input .discard = (result, ⟨i, registry, .discard⟩)) ∧
      ∀ d : Device, d.flushFault = none →
        let x := p.process input (.device d)
        ((d.room = none ∨ ∃ n, d.room = some n ∧ out.toUTF8.size ≤ n) →
          x.1 = result ∧ x.2.registry = registry ∧ x.2.sink.bytes = d.written ++ out.toUTF8) ∧
        (∀ n, d.room = some n → n < out.toUTF8.size →
          (∃ f : Failure, x.1 = .error f ∧ f.fault.kind = .io) ∧
            x.2.sink.bytes = d.written ++ out.toUTF8.extract 0 n) := by
  obtain ⟨result, out, i, registry, hd⟩ := exists_delivered p.context hb input p.registry
  refine ⟨result, out, registry, ⟨i, ?_⟩, ⟨i, ?_⟩, fun d hflush => ⟨fun hroom => ?_, ?_⟩⟩
  · exact (hd (.text "")).eq_of_emit (congrArg (fun t => (_, Sink.text t)) String.empty_append) rfl
  · exact (hd .discard).eq_of_emit rfl rfl
  · have hfits : ∀ n ∈ d.room, out.toUTF8.size ≤ n := by
      intro n hn
      rcases hroom with hroom | ⟨m, hroom, hm⟩
      · rw [hroom] at hn
        cases hn
      · rw [hroom] at hn
        cases hn
        exact hm
    obtain ⟨d', he, hw, hf⟩ := Sink.emit_device_of_le hfits
    have hflush' : (Sink.device d').flush = .ok () := by
      simp only [Sink.flush, Device.flush, hf, hflush]
    have hx := (hd (.device d)).eq_of_emit he hflush'
    unfold process
    rw [hx]
    exact ⟨rfl, rfl, hw⟩
  · intro n hroom hn
    obtain ⟨d', he, hw⟩ := Sink.emit_device_of_lt hroom hn
    obtain ⟨hx, hsink⟩ := (hd (.device d)).eq_of_refused he
    refine ⟨⟨_, hx, rfl⟩, ?_⟩
    unfold process
    rw [hsink]
    exact hw

/-- A device with room for seven bytes gets all of a text; one with room for six gets only half of
its last character. -/
theorem process_delivers_standard :
    let document := Input.ofText textName "#c:(ä b) ü"
    (standard.process document .discard).1 = .ok () ∧
      ((standard.process document (.device { room := some 7 })).1 = .ok () ∧
        (standard.process document (.device { room := some 7 })).2.sink.bytes =
          "ä b ü".toUTF8) ∧
      (∃ f : Failure,
        (standard.process document (.device { room := some 6 })).1 = .error f ∧
          f.fault.kind = .io) ∧
        (standard.process document (.device { room := some 6 })).2.sink.bytes =
          "ä b ü".toUTF8.extract 0 6 := by
  intro document
  have hb : ∀ e ∈ standard.table, e.BuiltIn := fun _ => builtIn_of_mem_standardTable
  obtain ⟨result, out, registry, ⟨i, htext⟩, ⟨j, hdiscard⟩, hdevice⟩ :=
    process_delivers standard hb document
  have hresult : (standard.process document (.text "")).1 = .ok () :=
    process_eq_of_within Prod.fst 4 (by decide +kernel)
  have hout : (standard.process document (.text "")).2.sink.contents = "ä b ü" :=
    process_eq_of_within (·.2.sink.contents) 4 (by decide +kernel)
  rw [htext] at hresult hout
  simp only [Sink.contents] at hresult hout
  subst hresult hout
  obtain ⟨hfits, -⟩ := hdevice { room := some 7 } rfl
  obtain ⟨-, hcut⟩ := hdevice { room := some 6 } rfl
  obtain ⟨hr, -, hbytes⟩ := hfits (.inr ⟨7, rfl, by decide⟩)
  obtain ⟨hf, hbytes'⟩ := hcut 6 rfl (by decide)
  exact ⟨congrArg Prod.fst hdiscard, ⟨hr, hbytes.trans ByteArray.empty_append⟩, hf,
    hbytes'.trans ByteArray.empty_append⟩

end Processor

end Sigil
