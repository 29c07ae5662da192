import NodeScript.Host.Basic
import NodeScript.Proofs.Format.Loaded
import NodeScript.Proofs.Run.Vacated

/-!
Guarded edits of structs on hosts. A struct counts as unused while only its constructor mentions
it, even where the constructor feeds an input for a struct of another name with the same fields.
Main statements: `Host.StructEdit.keeps_iff`, by which events run after such an edit as if the
constructor had lost its wires, and `Host.feeding_not_kept`, where a run is lost with them.
-/

set_option autoImplicit false
set_option relaxedAutoImplicit false

namespace NodeScript

namespace Host

/-- A host that runs a script with the types of the catalog. -/
structure IsScript (host : Host) : Prop where
  graph : host.graph.IsScript .builtin
  registry : host.registry = .builtin
  program : host.program = .compile host.graph .builtin

/-- An accepted change or removal of a struct leads from one host to another. -/
inductive StructEdit (host : Host) (s : StructId) (next : Host) : Prop where
  | removed (accepted : host.removeStruct s = (.ok true, next))
  | redefined {schema : Schema} {s' : StructId}
      (accepted : host.redefineStruct s schema = (.ok (some s'), next))

variable {host next : Host} {s : StructId}

theorem guard_eq_ok {α : Type} {inUse : Bool} {name : Option String} {edit : Except GraphError α}
    {a : α} (accepted : guard inUse name edit = .ok a) : inUse = false ∧ edit = .ok a := by
  cases inUse
  · exact ⟨rfl, accepted⟩
  · simp [guard] at accepted

theorem guard_orUnchanged_eq_ok {α : Type} {inUse : Bool} {name : Option String}
    {graph after : Graph} {made : Except GraphError (Option (α × Graph))} {a : α}
    (accepted : guard inUse name (made.map (orUnchanged graph)) = .ok (some a, after)) :
    inUse = false ∧ made = .ok (some (a, after)) := by
  obtain ⟨unused, changed⟩ := guard_eq_ok accepted
  obtain ⟨result, rfl, same⟩ := Accepted.map_iff.1 changed
  cases result with
  | none => simp [orUnchanged] at same
  | some result =>
    obtain ⟨b, next⟩ := result
    simp only [orUnchanged, Prod.mk.injEq, Option.some.injEq] at same
    obtain ⟨rfl, rfl⟩ := same
    exact ⟨unused, rfl⟩

theorem edit_eq_ok {α : Type} {change : Graph → Except GraphError (α × Graph)} {a : α}
    (accepted : host.edit change = (.ok a, next)) :
    ∃ graph, change host.graph = .ok (a, graph) ∧ next = host.replace graph := by
  unfold edit at accepted
  split at accepted
  · rename_i result graph changed
    simp only [Prod.mk.injEq, Except.ok.injEq] at accepted
    rw [accepted.1] at changed
    exact ⟨graph, changed, accepted.2.symm⟩
  · simp at accepted

theorem StructEdit.vacated (edit : host.StructEdit s next)
    (formed : host.graph.WellFormed Registry.builtin.Declares) :
    ∃ graph boundary, next = host.replace graph ∧
      host.graph.HasKind boundary (.construct s) ∧ host.graph.Vacated graph boundary := by
  cases edit with
  | removed accepted =>
    obtain ⟨graph, changed, rfl⟩ := edit_eq_ok accepted
    obtain ⟨unused, changed⟩ := guard_eq_ok changed
    have removed := Except.ok.inj changed
    cases found : host.graph.struct? s with
    | none => simp [Graph.removeStruct, found] at removed
    | some entry =>
      obtain ⟨boundary, own, vacated⟩ := formed.vacated_removeStruct found unused
      rw [removed] at vacated
      exact ⟨graph, boundary, rfl, own, vacated⟩
  | redefined accepted =>
    obtain ⟨graph, changed, rfl⟩ := edit_eq_ok accepted
    obtain ⟨unused, made⟩ := guard_orUnchanged_eq_ok changed
    obtain ⟨old, _, _, found, -⟩ := Graph.redefineStruct_eq_some made
    obtain ⟨boundary, own, vacated⟩ := formed.vacated_redefineStruct found unused made
    exact ⟨graph, boundary, rfl, own, vacated⟩

theorem IsScript.machine_replace (script : host.IsScript) (graph : Graph) :
    (host.replace graph).machine = graph.machine .builtin host.maxCallDepth := by
  rw [machine, replace, script.registry]
  rfl

theorem IsScript.machine_eq (script : host.IsScript) :
    host.machine = host.graph.machine .builtin host.maxCallDepth := by
  rw [machine, script.program]
  rfl

variable {fuel : Nat} {trigger : Trigger} {draws : Nat → Draws}

theorem fire_fst (host : Host) (fuel : Nat) (trigger : Trigger) (draws : Nat → Draws) :
    (host.fire fuel trigger draws).1 =
      (host.program.entries.subscribers trigger.event).toList.mapIdx fun place entry =>
        (host.invoke fuel trigger (draws place) entry).1 := by
  show ((host.program.entries.subscribers trigger.event).toList.mapIdx fun place entry =>
    host.invoke fuel trigger (draws place) entry).map (·.1) = _
  rw [List.mapIdx_eq_zipIdx_map, List.mapIdx_eq_zipIdx_map, List.map_map]
  rfl

theorem fire_congr (entries : next.program.entries = host.program.entries)
    (same : ∀ entry, next.machine.emit fuel entry = host.machine.emit fuel entry) :
    (next.fire fuel trigger draws).1 = (host.fire fuel trigger draws).1 := by
  rw [fire_fst, fire_fst, entries]
  simp only [invoke, same]

theorem fire_of_done {i : Nat} {entry : EntryPoint} {ctx : Context}
    (listed : (host.program.entries.subscribers trigger.event)[i]? = some entry)
    (done : (host.machine.emit fuel entry).runAt (.ofTrigger trigger (draws i)) = (.ok (), ctx)) :
    (host.fire fuel trigger draws).1[i]? = some (.ok ctx.report) := by
  rw [fire_fst, List.getElem?_mapIdx, Array.getElem?_toList, listed, Option.map_some, invoke, done]
  rfl

theorem done_of_fire {i : Nat} {report : Report}
    (ended : (host.fire fuel trigger draws).1[i]? = some (.ok report)) :
    ∃ entry ctx, (host.program.entries.subscribers trigger.event)[i]? = some entry ∧
      (host.machine.emit fuel entry).runAt (.ofTrigger trigger (draws i)) = (.ok (), ctx) ∧
      ctx.report = report := by
  rw [fire_fst, List.getElem?_mapIdx, Array.getElem?_toList, Option.map_eq_some_iff] at ended
  obtain ⟨entry, listed, invoked⟩ := ended
  rcases run : (host.machine.emit fuel entry).runAt (.ofTrigger trigger (draws i)) with
    ⟨_ | _, ctx⟩ <;> simp only [invoke, run] at invoked
  · exact absurd invoked (by simp [Except.map])
  · exact ⟨entry, ctx, listed, run, Except.ok.inj invoked⟩

/-- What a run of an event leaves behind where it comes to its end on one host, it leaves behind
on another one. -/
def Keeps (host next : Host) : Prop :=
  ∀ (fuel : Nat) (trigger : Trigger) (draws : Nat → Draws) (i : Nat) (report : Report),
    (host.fire fuel trigger draws).1[i]? = some (.ok report) →
    (next.fire fuel trigger draws).1[i]? = some (.ok report)

/-- After an accepted change or removal of a struct every event runs as if the constructor of the
struct had lost its wires, so no more and no less is kept. A run that ends without reading what the
constructor makes is kept. -/
theorem StructEdit.keeps_iff (script : host.IsScript) (edit : host.StructEdit s next) :
    ∃ boundary, host.graph.HasKind boundary (.construct s) ∧
      (host.Keeps next ↔ host.Keeps (host.replace (host.graph.cut boundary))) ∧
      ∀ (fuel : Nat) (trigger : Trigger) (draws : Nat → Draws),
        (next.fire fuel trigger draws).1 =
          ((host.replace (host.graph.cut boundary)).fire fuel trigger draws).1 ∧
        ∀ (i : Nat) (entry : EntryPoint) (ctx : Context),
          (host.program.entries.subscribers trigger.event)[i]? = some entry →
          (host.machine.emitWatched (host.graph.sparing boundary) fuel entry).runAt
            (.ofTrigger trigger (draws i)) = (.ok (), ctx) →
          (host.fire fuel trigger draws).1[i]? = some (.ok ctx.report) ∧
            (next.fire fuel trigger draws).1[i]? = some (.ok ctx.report) := by
  have formed := script.graph.wellFormed
  obtain ⟨after, boundary, rfl, own, vacated⟩ := edit.vacated formed
  have entries : (host.replace after).program.entries = host.program.entries := by
    rw [script.program, replace, script.registry]
    exact Program.entries_congr (vacated.builtin?_eq own)
  have cut : (host.replace (host.graph.cut boundary)).program.entries = host.program.entries := by
    rw [script.program, replace, script.registry]
    exact Program.entries_congr (Graph.builtin?_cut host.graph boundary)
  have emits (fuel : Nat) (entry : EntryPoint) : (host.replace after).machine.emit fuel entry =
      (host.replace (host.graph.cut boundary)).machine.emit fuel entry := by
    rw [script.machine_replace, script.machine_replace]
    exact vacated.emit_eq formed own host.maxCallDepth fuel entry
  have same (fuel : Nat) (trigger : Trigger) (draws : Nat → Draws) :
      ((host.replace after).fire fuel trigger draws).1 =
        ((host.replace (host.graph.cut boundary)).fire fuel trigger draws).1 :=
    fire_congr (entries.trans cut.symm) (emits fuel)
  refine ⟨boundary, own, by simp only [Keeps, same], fun fuel trigger draws => ?_⟩
  refine ⟨same fuel trigger draws, ?_⟩
  intro i entry ctx listed done
  have spared := formed.emit_cut own host.maxCallDepth fuel entry
  have before := Machine.emitWatched_follows_emit (host.graph.machine .builtin host.maxCallDepth)
    (fun _ _ uncaught => uncaught _ _ rfl)
    (fun id behavior found => Graph.parametric_of_machine Registry.builtin_parametric found)
    (fun target _ _ follows => follows.sparing host.graph boundary target) fuel entry
  rw [← script.machine_replace (host.graph.cut boundary), ← script.machine_eq] at spared
  rw [← script.machine_eq] at before
  refine ⟨fire_of_done listed (before.of_ok done), ?_⟩
  rw [same]
  rw [← cut] at listed
  exact fire_of_done listed (spared.of_ok done)

end Host

def Edit.feeding : List Edit := [
  .defineStruct ⟨"A", [("x", .number)]⟩ .zero,
  .defineStruct ⟨"B", [("x", .number)]⟩ .zero,
  .addBuiltin "event/On" (.obj [("event", .str "go")]) .zero,
  .addBuiltin "struct/Get" (.obj [("struct", .str "B"), ("field", .str "x")]) .zero,
  .addBuiltin "var/Set" .null .zero,
  .setInset ⟨⟨0⟩, 0⟩ (some (.number .zero)),
  .connect ⟨⟨0⟩, 0⟩ ⟨⟨3⟩, 0⟩ [],
  .connect ⟨⟨3⟩, 0⟩ ⟨⟨4⟩, 1⟩ [],
  .connect ⟨⟨2⟩, 0⟩ ⟨⟨4⟩, 0⟩ []]

def Host.edited? (edits : List Edit) : Option Host :=
  (edits.foldlM (Edit.apply .builtin) .empty).toOption.map (ofGraph .builtin)

theorem Host.IsScript.of_edited {edits : List Edit} {host : Host} (made : host ∈ edited? edits) :
    host.IsScript := by
  obtain ⟨graph, built, rfl⟩ := Option.map_eq_some_iff.1 made
  exact ⟨Reached.foldlM rfl (.first (.inl rfl)) (fun _ _ _ => trivial)
    (Accepted.toOption_eq_some_iff.1 built), rfl, rfl⟩

def stop? (ended : Except Stop Report) : Option Stop :=
  match ended with
  | .ok _ => none
  | .error stop => some stop

private theorem feeding_removed : ∃ host ∈ Host.edited? Edit.feeding,
    (host.removeStruct ⟨0⟩).1.toOption = some true ∧
      (host.fire 9 { event := "go" }).1.map stop? = [none] ∧
      ((host.removeStruct ⟨0⟩).2.fire 9 { event := "go" }).1.map stop? =
        [some (.fault (.missingValue ⟨3⟩ "value"))] := by
  decide +kernel

theorem Host.feeding_runs_as_cut : ∃ (host next : Host) (boundary : NodeId),
    host.IsScript ∧ host.StructEdit ⟨0⟩ next ∧ host.graph.HasKind boundary (.construct ⟨0⟩) ∧
      (next.fire 9 { event := "go" }).1 =
        ((host.replace (host.graph.cut boundary)).fire 9 { event := "go" }).1 := by
  obtain ⟨host, made, accepted, -⟩ := feeding_removed
  have script := IsScript.of_edited made
  have edit : host.StructEdit ⟨0⟩ (host.removeStruct ⟨0⟩).2 :=
    .removed (Prod.ext (Accepted.toOption_eq_some_iff.1 accepted) rfl)
  obtain ⟨boundary, own, -, runs⟩ := edit.keeps_iff script
  exact ⟨host, _, boundary, script, edit, own, (runs 9 { event := "go" } fun _ => default).1⟩

/-- The event comes to its end before the struct is removed. After it the input that the constructor
fed has no value. -/
theorem Host.feeding_not_kept : ∃ (host next : Host) (s : StructId) (report : Report),
    host.IsScript ∧ host.StructEdit s next ∧
      (host.fire 9 { event := "go" }).1 = [.ok report] ∧
      (next.fire 9 { event := "go" }).1 = [.error (.fault (.missingValue ⟨3⟩ "value"))] ∧
      ¬host.Keeps next := by
  obtain ⟨host, made, accepted, before, after⟩ := feeding_removed
  obtain ⟨ended, fired, done⟩ := List.map_eq_singleton_iff.1 before
  obtain ⟨ended', fired', stopped⟩ := List.map_eq_singleton_iff.1 after
  cases ended with
  | error stop => simp [stop?] at done
  | ok report =>
    cases ended' with
    | ok report' => simp [stop?] at stopped
    | error stop =>
      obtain rfl := Option.some.inj stopped
      refine ⟨host, (host.removeStruct ⟨0⟩).2, ⟨0⟩, report, .of_edited made,
        .removed (Prod.ext (Accepted.toOption_eq_some_iff.1 accepted) rfl), fired, fired',
        fun keeps => ?_⟩
      have kept := keeps 9 { event := "go" } (fun _ => default) 0 report (by rw [fired]; rfl)
      rw [fired'] at kept
      simp at kept

end NodeScript
