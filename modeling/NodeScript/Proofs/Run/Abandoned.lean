import NodeScript.Proofs.Graph.Abandoned
import NodeScript.Proofs.Run.Vacated

/-!
Runs once a function that no node calls is changed or removed. Control that comes to the end of the
body, and a value that is asked of its beginning, look for the call that opened the innermost frame.
There is none, so the run stops, and nothing catches that. A run that comes to its end has therefore
met none of the nodes of the function. Main statement: `Abandoned.emit_follows`.
-/

set_option autoImplicit false
set_option relaxedAutoImplicit false

namespace NodeScript

open Run

namespace Machine

variable {machine : Machine} {f : FunctionId} {fuel : Nat} {parts : Parts}

theorem currentCall_stops (uncalled : ∀ id, ¬machine.graph.HasKind id (.call f))
    (boundary : NodeId) :
    Stops Stop.Uncaught (machine.currentCall boundary f) := by
  intro ctx
  obtain ⟨call, -, calls, -⟩ | ⟨-, stopped⟩ := machine.currentCall_cases boundary f ctx
  · exact absurd calls (uncalled call)
  · exact ⟨.fault (.outsideFunction boundary), ctx, stopped, fun _ _ => by simp⟩

private theorem stops_fail {α : Type} {error : RunError}
    (other : ∀ node input, error ≠ .missingValue node input) :
    Stops Stop.Uncaught (fail error : Run α) := by
  refine .throw fun node input => ?_
  simpa using other node input

private theorem stops_step {α : Type} {run : Run α} (stops : Stops Stop.Uncaught run) :
    Stops Stop.Uncaught (step >>= fun _ => run) := by
  intro ctx
  obtain ⟨stop, ctx', stopped, reason⟩ := stops { ctx with steps := ctx.steps + 1 }
  exact ⟨stop, ctx', by rw [runAt_bind]; exact stopped, reason⟩

theorem stuck_of_bound (uncalled : ∀ id, ¬machine.graph.HasKind id (.call f)) {target : InputRef}
    (bound : target.node ∈ machine.graph.boundTo f) :
    Stops Stop.Uncaught (machine.executeWith fuel parts target) := by
  obtain ⟨form, hf, of⟩ := Graph.mem_boundTo.1 bound
  obtain ⟨node, here, rfl⟩ := Graph.node?_of_form? hf
  unfold executeWith
  rw [here]
  refine stops_step ?_
  rcases NodeKind.boundary_of_function? of fun call =>
    uncalled _ (Graph.hasKind_iff.2 ⟨node, here, call⟩) with kind | kind
  · rw [show node.kind = _ from kind]
    exact stops_fail fun _ _ => by simp
  · rw [show node.kind = _ from kind]
    exact (currentCall_stops uncalled _).bind _

theorem dry_of_bound (uncalled : ∀ id, ¬machine.graph.HasKind id (.call f)) {source : OutputRef}
    (bound : source.node ∈ machine.graph.boundTo f) :
    Stops Stop.Uncaught (machine.evaluateWith fuel parts source) := by
  obtain ⟨form, hf, of⟩ := Graph.mem_boundTo.1 bound
  obtain ⟨node, here, rfl⟩ := Graph.node?_of_form? hf
  rw [evaluateWith_eq, here]
  dsimp only
  split
  · exact stops_fail fun _ _ => by simp
  refine stops_step ?_
  rcases NodeKind.boundary_of_function? of fun call =>
    uncalled _ (Graph.hasKind_iff.2 ⟨node, here, call⟩) with kind | kind
  · rw [show node.kind = _ from kind]
    exact (currentCall_stops uncalled _).bind _
  · rw [show node.kind = _ from kind]
    exact stops_fail fun _ _ => by simp

end Machine

namespace Graph

variable {admits : Admits} {graph next : Graph} {f : FunctionId} {id : NodeId}

theorem outside_iff : graph.Outside f id ↔
    ∃ form, graph.form? id = some form ∧ form.kind.function? ≠ some f := by
  rw [Outside, mem_boundTo]
  constructor
  · rintro ⟨here, apart⟩
    obtain ⟨node, here⟩ := Option.isSome_iff_exists.1 here
    exact ⟨node.form, form?_eq_of_node? here, fun of => apart ⟨_, form?_eq_of_node? here, of⟩⟩
  · rintro ⟨form, hf, other⟩
    obtain ⟨node, here, rfl⟩ := node?_of_form? hf
    refine ⟨Option.isSome_of_eq_some here, ?_⟩
    rintro ⟨form, hf', of⟩
    obtain rfl := Option.some.inj (hf.symm.trans hf')
    exact other of

theorem HasKind.outside {kind : NodeKind} (has : graph.HasKind id kind)
    (other : kind.function? ≠ some f) : graph.Outside f id := by
  obtain ⟨form, hf, rfl⟩ := has
  exact outside_iff.2 ⟨form, hf, other⟩

theorem Abandoned.form?_eq (abandoned : graph.Abandoned next f) (outside : graph.Outside f id) :
    next.form? id = graph.form? id := by
  rw [form?, abandoned.nodes id outside]
  exact form?_restrict graph _ id

theorem Abandoned.form?_iff (abandoned : graph.Abandoned next f)
    (uncalled : ∀ id, ¬graph.HasKind id (.call f)) {form : Form}
    (other : ∀ g, form.kind ≠ .functionInput g ∧ form.kind ≠ .functionOutput g) :
    next.form? id = some form ↔ graph.form? id = some form := by
  constructor
  · intro found
    rcases abandoned.others id form found with outside | ⟨g, kind | kind⟩
    · rwa [← abandoned.form?_eq outside]
    · exact absurd kind (other g).1
    · exact absurd kind (other g).2
  · intro found
    have outside : graph.Outside f id := by
      refine outside_iff.2 ⟨form, found, fun of => ?_⟩
      rcases NodeKind.boundary_of_function? of fun call => uncalled id ⟨form, found, call⟩
        with kind | kind
      · exact (other f).1 kind
      · exact (other f).2 kind
    rwa [abandoned.form?_eq outside]

theorem Abandoned.builtin?_eq (abandoned : graph.Abandoned next f)
    (uncalled : ∀ id, ¬graph.HasKind id (.call f)) (id : NodeId) :
    next.builtin? id = graph.builtin? id := by
  refine builtin?_congr fun form type kind => ?_
  exact abandoned.form?_iff uncalled fun g => by simp [kind]

theorem Abandoned.calls_iff (abandoned : graph.Abandoned next f)
    (uncalled : ∀ id, ¬graph.HasKind id (.call f)) (id : NodeId) (g : FunctionId) :
    next.HasKind id (.call g) ↔ graph.HasKind id (.call g) := by
  refine exists_congr fun form => and_congr_left fun kind => ?_
  exact abandoned.form?_iff uncalled fun g => by simp [kind]

theorem Wired.target_there (wired : graph.Wired) {source : OutputRef} {target : InputRef}
    (found : graph.signalTarget? source = some target) : (graph.node? target.node).isSome := by
  rw [signalTarget?_eq] at found
  obtain ⟨output, ho, first⟩ := Option.bind_eq_some_iff.1 found
  obtain ⟨input, hi, -⟩ := wired.target ho (List.mem_of_head? first)
  exact isSome_of_input? hi

theorem Wired.source_there (wired : graph.Wired) {target : InputRef} {source : OutputRef}
    {input : Input} (found : graph.input? target = some input)
    (reads : input.source? = some source) : (graph.node? source.node).isSome := by
  obtain ⟨wire, first, rfl⟩ := Option.map_eq_some_iff.1 reads
  obtain ⟨output, ho, -⟩ := wired.source found (List.mem_of_head? first)
  exact isSome_of_output? ho

theorem Keep.off_apart {ids : List NodeId} {source : OutputRef} {target : InputRef}
    (left : source.node ∉ ids) (right : target.node ∉ ids) :
    Keep.off ids source target = true := by
  simp [Keep.off, left, right]

end Graph

section

variable {registry : Registry} {admits : Graph.Admits} {graph next : Graph} {f : FunctionId}
  {limit : Nat}

private theorem Graph.WellFormed.function_of_call (formed : graph.WellFormed admits) {id : NodeId}
    {g : FunctionId} (has : graph.HasKind id (.call g)) : (graph.function? g).isSome := by
  obtain ⟨form, hf, kind⟩ := has
  have fits := formed.fit hf
  cases found : graph.function? g with
  | some entry => rfl
  | none =>
    have of : (NodeKind.call g).function? = some g := rfl
    simp [Graph.Fits, kind, Graph.definedPorts_of_function graph of, Graph.signature?,
      found] at fits

/-- The nodes of the other functions do not belong to the function. -/
private theorem Graph.Owned.outside (owned : graph.Owned) {g : FunctionId} {entry : FunctionEntry}
    (found : graph.function? g = some entry) (other : g ≠ f) {id : NodeId}
    (belongs : entry.input = some id ∨ entry.output = some id) : graph.Outside f id := by
  have same : entry.id = g := by simpa using List.find?_some found
  have mem := List.mem_of_find?_eq_some found
  subst same
  have apart : some entry.id ≠ some f := fun h => other (Option.some.inj h)
  rcases belongs with input | output
  · exact (owned.inputs entry mem id input).outside apart
  · exact (owned.outputs entry mem id output).outside apart

/-- Runs cannot tell the graph that is left from the graph that was, unless control or the demand
for a value comes to a node of the function. -/
theorem Graph.Abandoned.simulates (abandoned : graph.Abandoned next f)
    (formed : graph.WellFormed admits) (uncalled : ∀ id, ¬graph.HasKind id (.call f))
    (parametric : registry.Parametric) :
    Machine.Simulates Stop.Uncaught (graph.Outside f) (fun _ id => id ∈ graph.boundTo f)
      (fun _ read => read) (graph.machine registry limit) (next.machine registry limit) := by
  have other {id : NodeId} {g : FunctionId} (calls : graph.HasKind id (.call g)) : g ≠ f := by
    rintro rfl
    exact uncalled id calls
  refine {
    caught := fun node input uncaught => uncaught node input rfl
    limit := .inl rfl
    behavior := fun id _ => ?_
    parametric := fun _ _ found => Graph.parametric_of_machine parametric found
    slots := fun id _ => ?_
    node := fun id seen => ?_
    calls := abandoned.calls_iff uncalled
    callers := fun id g calls => calls.outside (by simpa [NodeKind.function?] using other calls)
    functions := fun call g calls => ?_
    boundaries := fun call g entry calls found id belongs => ?_
    schemas := fun id s _ _ => ?_
    targets := fun source seen => ?_
    spent := fun _ _ _ _ _ => by simp
    stuck := fun fuel parts target gone => Machine.stuck_of_bound uncalled gone
    dry := fun fuel parts source gone => Machine.dry_of_bound uncalled gone
    sources := fun target input seen found => ?_
    watch := fun _ _ _ follows => follows }
  · show (Program.compile next registry).behavior? id =
      (Program.compile graph registry).behavior? id
    rw [Program.behavior?_compile, Program.behavior?_compile, abandoned.builtin?_eq uncalled]
  · exact congrArg (·.slotsOf id) (Program.entries_congr (abandoned.builtin?_eq uncalled))
  · exact (congrArg (Option.map Node.bare) (abandoned.nodes id seen)).trans
      (bare?_restrict graph _ id)
  · exact abandoned.functions g (other calls) (formed.function_of_call calls)
  · exact formed.owned.outside found (other calls) belongs
  · exact congrArg (fun structs => (structs.find? (·.id == s)).map (·.schema)) abandoned.structs
  · by_cases bound : ∃ target, graph.signalTarget? source = some target ∧
        target.node ∈ graph.boundTo f
    · exact .inr bound
    · have apart (target : InputRef) (found : graph.signalTarget? source = some target) :
          target.node ∉ graph.boundTo f := fun mem => bound ⟨target, found, mem⟩
      refine .inl ⟨(signalTarget?_congr (abandoned.nodes _ seen)).trans
        (signalTarget?_restrict fun target found => Keep.off_apart seen.2 (apart target found)),
        fun target found => ⟨formed.wired.target_there found, apart target found⟩⟩
  · by_cases bound : ∃ source, input.source? = some source ∧ source.node ∈ graph.boundTo f
    · exact .inr (.inl bound)
    · have apart (source : OutputRef) (reads : input.source? = some source) :
          source.node ∉ graph.boundTo f := fun mem => bound ⟨source, reads, mem⟩
      refine .inl ⟨fun input' found' => ?_, fun source reads =>
        ⟨formed.wired.source_there found reads, apart source reads⟩⟩
      have same : next.input? target =
          (graph.restrict (Keep.off (graph.boundTo f))).input? target := by
        rw [input?, input?, abandoned.nodes _ seen]
      have found'' : (graph.restrict (Keep.off (graph.boundTo f))).input? target = some input' := by
        rw [← same]
        exact found'
      exact source?_restrict found found'' fun source reads =>
        Keep.off_apart (apart source reads) seen.2

private theorem root_outside {entry : EntryPoint} {root : OutputRef}
    (found : (Program.compile graph .builtin).entries.root? entry = some root) :
    graph.Outside f root.node := by
  have event := (Graph.hasKind_root found).2
  exact event.outside (by simp [NodeKind.function?])

/-- A run that comes to its end before the function is gone comes to the same end after it. -/
theorem Graph.Abandoned.emit_follows (abandoned : graph.Abandoned next f)
    (formed : graph.WellFormed admits) (uncalled : ∀ id, ¬graph.HasKind id (.call f))
    (limit fuel : Nat) (entry : EntryPoint) :
    Run.Follows Stop.Uncaught ((graph.machine .builtin limit).emit fuel entry)
      ((next.machine .builtin limit).emit fuel entry) := by
  rw [← Machine.emitWatched_eq_emit]
  exact (abandoned.simulates formed uncalled Registry.builtin_parametric).emit_follows
    (Program.entries_congr (abandoned.builtin?_eq uncalled)) (fun _ _ => root_outside) entry

end

end NodeScript
