import NodeScript.Proofs.Host.Guarded
import NodeScript.Proofs.Run.Abandoned

/-!
Guarded edits of functions on hosts. A function counts as unused while no node calls it, whatever
nodes its body shares with what events run. Main statement: `Host.FunctionEdit.keeps`, by which such
an edit leaves every event as many runs as it had, and every run that came to its end its result.
-/

set_option autoImplicit false
set_option relaxedAutoImplicit false

namespace NodeScript

namespace Host

/-- An accepted change or removal of a function leads from one host to another. -/
inductive FunctionEdit (host : Host) (f : FunctionId) (next : Host) : Prop where
  | removed (accepted : host.removeFunction f = (.ok true, next))
  | redefined {signature : Signature} {f' : FunctionId}
      (accepted : host.redefineFunction f signature = (.ok (some f'), next))

variable {host next : Host} {f : FunctionId}

theorem FunctionEdit.abandoned (edit : host.FunctionEdit f next)
    (formed : host.graph.WellFormed Registry.builtin.Declares) :
    ∃ graph, next = host.replace graph ∧ host.graph.functionInUse f = false ∧
      host.graph.Abandoned graph f := by
  cases edit with
  | removed accepted =>
    obtain ⟨graph, changed, rfl⟩ := edit_eq_ok accepted
    obtain ⟨unused, changed⟩ := guard_eq_ok changed
    exact ⟨graph, rfl, unused, formed.abandoned_removeFunction (Except.ok.inj changed)⟩
  | redefined accepted =>
    obtain ⟨graph, changed, rfl⟩ := edit_eq_ok accepted
    obtain ⟨unused, made⟩ := guard_orUnchanged_eq_ok changed
    exact ⟨graph, rfl, unused, formed.abandoned_redefineFunction unused made⟩

/-- An accepted change or removal of a function disturbs no event. Each has as many runs as it had,
and a run that came to its end leaves the same event, messages, variables and number of steps
behind. -/
theorem FunctionEdit.keeps (script : host.IsScript) (edit : host.FunctionEdit f next) :
    (∀ (fuel : Nat) (trigger : Trigger) (draws : Nat → Draws),
      (next.fire fuel trigger draws).1.length = (host.fire fuel trigger draws).1.length) ∧
    host.Keeps next := by
  have formed := script.graph.wellFormed
  obtain ⟨after, rfl, unused, abandoned⟩ := edit.abandoned formed
  have uncalled (id : NodeId) : ¬host.graph.HasKind id (.call f) := fun calls => by
    simp [Graph.functionInUse_iff.2 ⟨id, calls⟩] at unused
  have entries : (host.replace after).program.entries = host.program.entries := by
    rw [script.program, replace, script.registry]
    exact Program.entries_congr (abandoned.builtin?_eq uncalled)
  refine ⟨fun fuel trigger draws => ?_, fun fuel trigger draws i report ended => ?_⟩
  · rw [fire_fst, fire_fst, entries, List.length_mapIdx, List.length_mapIdx]
  · obtain ⟨entry, ctx, listed, done, rfl⟩ := done_of_fire ended
    have follows := abandoned.emit_follows formed uncalled host.maxCallDepth fuel entry
    rw [← script.machine_replace after, ← script.machine_eq] at follows
    rw [← entries] at listed
    exact fire_of_done listed (follows.of_ok done)

end Host

def Edit.sharing : List Edit := [
  .defineFunction { name := "f", inputs := [("x", .boolean)], outputs := [("y", .boolean)] } .zero,
  .addBuiltin "event/On" (.obj [("event", .str "go")]) .zero,
  .addBuiltin "logic/And" .null .zero,
  .addBuiltin "var/Set" (.obj [("type", .str "boolean")]) .zero,
  .setInset ⟨⟨3⟩, 0⟩ (some (.boolean false)),
  .connect ⟨⟨0⟩, 0⟩ ⟨⟨3⟩, 1⟩ [],
  .connect ⟨⟨3⟩, 0⟩ ⟨⟨1⟩, 0⟩ [],
  .connect ⟨⟨3⟩, 0⟩ ⟨⟨4⟩, 1⟩ [],
  .connect ⟨⟨2⟩, 0⟩ ⟨⟨4⟩, 0⟩ []]

theorem Host.sharing_kept : ∃ (host next : Host) (report : Report),
    host.IsScript ∧ host.FunctionEdit ⟨0⟩ next ∧ host.graph.wireCount = 4 ∧
      next.graph.wireCount = 2 ∧ (host.fire 9 { event := "go" }).1 = [.ok report] ∧
      (next.fire 9 { event := "go" }).1 = [.ok report] := by
  have facts : ∃ host ∈ edited? Edit.sharing, (host.removeFunction ⟨0⟩).1.toOption = some true ∧
      host.graph.wireCount = 4 ∧ (host.removeFunction ⟨0⟩).2.graph.wireCount = 2 ∧
      (host.fire 9 { event := "go" }).1.map stop? = [none] := by
    decide +kernel
  obtain ⟨host, made, accepted, wires, left, fired⟩ := facts
  have script := IsScript.of_edited made
  have edit : host.FunctionEdit ⟨0⟩ (host.removeFunction ⟨0⟩).2 :=
    .removed (Prod.ext (Accepted.toOption_eq_some_iff.1 accepted) rfl)
  obtain ⟨ended, before, done⟩ := List.map_eq_singleton_iff.1 fired
  cases ended with
  | error stop => simp [stop?] at done
  | ok report =>
    obtain ⟨lengths, keeps⟩ := edit.keeps script
    refine ⟨host, _, report, script, edit, wires, left, before, ?_⟩
    obtain ⟨result, after⟩ := List.length_eq_one_iff.1
      ((lengths 9 { event := "go" } fun _ => default).trans (by rw [before]; rfl))
    have kept := keeps 9 { event := "go" } (fun _ => default) 0 report (by rw [before]; rfl)
    rw [after] at kept ⊢
    exact congrArg (fun result => [result]) (Option.some.inj kept)

end NodeScript
