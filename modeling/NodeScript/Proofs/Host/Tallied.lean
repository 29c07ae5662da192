import NodeScript.Proofs.Host.Guarded
import NodeScript.Proofs.Run.Subscribed

/-!
What hosts do over time. Whatever edits are made or refused between them, the runs of an event are
those of the nodes that wait for it in the graph of the time, and the counters of a host are those
of all its runs so far. Main statement: `Host.performAll_tallied`.
-/

set_option autoImplicit false
set_option relaxedAutoImplicit false

namespace NodeScript

open Host

/-- A run of an event. -/
structure Invocation where
  event : String
  result : Except Stop Report
  steps : Nat

namespace Invocation

def failed (run : Invocation) : Bool := run.result matches .error _

def total (event : String) (runs : List Invocation) : EventStats :=
  let own := runs.filter (·.event = event)
  { invocations := own.length
    failures := own.countP (·.failed)
    steps := own.foldl (fun steps run => steps + run.steps) 0 }

/-- What some runs add up to, for each of their events, in the order of the events. -/
def tally (runs : List Invocation) : Dict EventStats :=
  (Dict.distinct (runs.map (·.event))).map fun event => (event, total event runs)

variable {runs : List Invocation} {run : Invocation} {event : String}

theorem tally_ascending (runs : List Invocation) : Dict.Ascending (tally runs) := by
  rw [Dict.Ascending, tally, List.map_map]
  have names : (Prod.fst ∘ fun event => (event, total event runs)) = id := rfl
  rw [names, List.map_id]
  exact Dict.distinct_pairwise _

theorem lookup_tally : (tally runs).lookup event =
    if event ∈ runs.map (·.event) then some (total event runs) else none := by
  refine Option.ext fun stats => ?_
  rw [← Dict.mem_iff_lookup (tally_ascending runs), tally, List.mem_map]
  simp only [Dict.mem_distinct, Prod.mk.injEq]
  split
  · rename_i mem
    refine ⟨?_, ?_⟩
    · rintro ⟨_, _, here, same⟩
      subst here
      exact congrArg some same
    · intro same
      exact ⟨event, mem, rfl, Option.some.inj same⟩
  · rename_i absent
    refine ⟨?_, by simp⟩
    rintro ⟨other, mem, rfl, _⟩
    exact absurd mem absent

theorem total_eq_empty (absent : event ∉ runs.map (·.event)) : total event runs = {} := by
  have none : runs.filter (·.event = event) = [] := by
    refine List.filter_eq_nil_iff.2 fun run mem same => absent ?_
    rw [← of_decide_eq_true same]
    exact List.mem_map_of_mem mem
  rw [total, none]
  rfl

theorem total_concat_self (runs : List Invocation) (run : Invocation) :
    total run.event (runs ++ [run]) =
      { invocations := (total run.event runs).invocations + 1
        failures := (total run.event runs).failures + if run.failed then 1 else 0
        steps := (total run.event runs).steps + run.steps } := by
  simp [total, List.filter_append, List.countP_append, List.countP_cons, List.foldl_append]

theorem total_concat_of_ne (other : event ≠ run.event) :
    total event (runs ++ [run]) = total event runs := by
  simp [total, List.filter_append, Ne.symm other]

theorem record_tally (runs : List Invocation) (run : Invocation) :
    record run.event run.steps run.failed (tally runs) = tally (runs ++ [run]) := by
  refine Dict.ext_lookup (Dict.ascending_insert (tally_ascending runs)) (tally_ascending _) ?_
  intro event
  have known : ((tally runs).lookup run.event).getD {} = total run.event runs := by
    rw [lookup_tally]
    split
    · rfl
    · exact (total_eq_empty ‹_›).symm
  rw [record, known, Dict.lookup_insert, lookup_tally, lookup_tally]
  have listed : event ∈ (runs ++ [run]).map (·.event) ↔
      event ∈ runs.map (·.event) ∨ event = run.event := by simp
  by_cases here : event = run.event
  · rw [if_pos here, if_pos (listed.2 (.inr here)), here, total_concat_self]
  · rw [if_neg here, total_concat_of_ne here]
    exact if_congr ((listed.trans (or_iff_left here)).symm) rfl rfl

theorem foldl_record (runs more : List Invocation) :
    more.foldl (fun stats run => record run.event run.steps run.failed stats) (tally runs) =
      tally (runs ++ more) := by
  induction more generalizing runs with
  | nil => rw [List.foldl_nil, List.append_nil]
  | cons run more ih => rw [List.foldl_cons, record_tally, ih, List.append_assoc]; rfl

end Invocation

namespace Graph

def invocations (graph : Graph) (limit fuel : Nat) (trigger : Trigger) (draws : Nat → Draws) :
    List Invocation :=
  (graph.listeners trigger.event).mapIdx fun place id =>
    let (result, ctx) := ((graph.machine .builtin limit).fire fuel ⟨id, 0⟩).runAt
      (.ofTrigger trigger (draws place))
    { event := trigger.event, result := result.map fun _ => ctx.report, steps := ctx.steps }

theorem event_of_mem_invocations {graph : Graph} {limit fuel : Nat} {trigger : Trigger}
    {draws : Nat → Draws} {run : Invocation}
    (mem : run ∈ graph.invocations limit fuel trigger draws) : run.event = trigger.event := by
  obtain ⟨place, _, rfl⟩ := List.mem_mapIdx.1 mem
  rfl

def awaited (graph : Graph) : List String :=
  Dict.distinct (graph.live.filterMap (·.2.event?))

def invocationsWhere (graph : Graph) (limit fuel : Nat) (chosen : String → Bool)
    (trigger : Trigger) (draws : String → Nat → Draws) : List Invocation :=
  (graph.awaited.filter chosen).flatMap fun event =>
    graph.invocations limit fuel { trigger with event } (draws event)

/-- What an edit that may be refused leaves of a graph. -/
def after {α : Type} (graph : Graph) (change : Graph → Except GraphError (α × Graph)) : Graph :=
  match change graph with
  | .ok (_, next) => next
  | .error _ => graph

theorem events_compile (graph : Graph) :
    (Program.compile graph .builtin).entries.events.map (·.1) = graph.awaited := by
  refine Dict.eq_distinct (Program.listed graph).ascending fun event => ?_
  rw [Program.mem_events_compile]
  simp [mem_live]

end Graph

namespace Host

def fireWhere (host : Host) (fuel : Nat) (chosen : String → Bool) (trigger : Trigger)
    (draws : String → Nat → Draws) : List (Except Stop Report) × Host :=
  let events := (host.program.entries.events.map (·.1)).filter chosen
  events.foldl (fun (results, host) event =>
    let (more, host) := host.fire fuel { trigger with event } (draws event)
    (results ++ more, host)) ([], host)

theorem fireMatching_eq (host : Host) (fuel : Nat) (pattern : String) (trigger : Trigger)
    (draws : String → Nat → Draws) : host.fireMatching fuel pattern trigger draws =
      host.fireWhere fuel (fun event => Text.matchesGlob pattern.toList event.toList) trigger
        draws := rfl

/-- What a host is asked for. An edit is any change of the graph, with what it gives or why it is
refused; one that stops halfway gives its error as what it gives, with the graph it has made. -/
inductive Operation : Type 1 where
  | edit {α : Type} (change : Graph → Except GraphError (α × Graph))
  | redefineFunction (id : FunctionId) (next : Signature)
  | removeFunction (id : FunctionId)
  | redefineStruct (id : StructId) (next : Schema)
  | removeStruct (id : StructId)
  | replace (graph : Graph)
  | fire (fuel : Nat) (trigger : Trigger) (draws : Nat → Draws)
  | fireMatching (fuel : Nat) (pattern : String) (trigger : Trigger) (draws : String → Nat → Draws)
  | fireWhere (fuel : Nat) (chosen : String → Bool) (trigger : Trigger)
      (draws : String → Nat → Draws)

/-- The results of the runs that an operation makes, and the host after it. -/
def perform (host : Host) : Operation → List (Except Stop Report) × Host
  | .edit change => ([], (host.edit change).2)
  | .redefineFunction id next => ([], (host.redefineFunction id next).2)
  | .removeFunction id => ([], (host.removeFunction id).2)
  | .redefineStruct id next => ([], (host.redefineStruct id next).2)
  | .removeStruct id => ([], (host.removeStruct id).2)
  | .replace graph => ([], host.replace graph)
  | .fire fuel trigger draws => host.fire fuel trigger draws
  | .fireMatching fuel pattern trigger draws => host.fireMatching fuel pattern trigger draws
  | .fireWhere fuel chosen trigger draws => host.fireWhere fuel chosen trigger draws

/-- The results of each operation, and the host after all of them. -/
def performAll (host : Host) : List Operation → List (List (Except Stop Report)) × Host
  | [] => ([], host)
  | operation :: rest =>
    let (results, host) := host.perform operation
    let (all, host) := host.performAll rest
    (results :: all, host)

namespace Operation

/-- What an operation makes of the graph. -/
def edited (graph : Graph) : Operation → Graph
  | .edit change => graph.after change
  | .redefineFunction id next =>
    if graph.functionInUse id then graph
    else match graph.redefineFunction id next with
      | .ok (some (_, next)) => next
      | _ => graph
  | .removeFunction id =>
    if graph.functionInUse id then graph else (graph.removeFunction id).2
  | .redefineStruct id next =>
    if graph.structInUse id then graph
    else match graph.redefineStruct id next with
      | .ok (some (_, next)) => next
      | _ => graph
  | .removeStruct id =>
    if graph.structInUse id then graph else (graph.removeStruct id).2
  | .replace next => next
  | .fire .. | .fireMatching .. | .fireWhere .. => graph

def invocations (limit : Nat) (graph : Graph) : Operation → List Invocation
  | .fire fuel trigger draws => graph.invocations limit fuel trigger draws
  | .fireMatching fuel pattern trigger draws => graph.invocationsWhere limit fuel
      (fun event => Text.matchesGlob pattern.toList event.toList) trigger draws
  | .fireWhere fuel chosen trigger draws => graph.invocationsWhere limit fuel chosen trigger draws
  | _ => []

/-- The runs that each of some operations makes, in the graph that those before it leave. -/
def history (limit : Nat) : Graph → List Operation → List (List Invocation)
  | _, [] => []
  | graph, operation :: rest =>
    operation.invocations limit graph :: history limit (operation.edited graph) rest

end Operation

/-- A host runs a graph as it is, and has counted its runs so far. -/
structure Tallied (limit : Nat) (graph : Graph) (runs : List Invocation) (host : Host) : Prop where
  registry : host.registry = .builtin
  current : host.graph = graph
  program : host.program = .compile graph .builtin
  limit : host.maxCallDepth = limit
  stats : host.stats = Invocation.tally runs

namespace Tallied

variable {limit : Nat} {graph : Graph} {runs : List Invocation} {host : Host}

theorem replace (tallied : host.Tallied limit graph runs) (next : Graph) :
    (host.replace next).Tallied limit next runs where
  registry := tallied.registry
  current := rfl
  program := by rw [Host.replace, tallied.registry]
  limit := tallied.limit
  stats := tallied.stats

/-- An edit leaves the graph that it makes, or the one that was there. -/
theorem edit (tallied : host.Tallied limit graph runs) {α : Type}
    (change : Graph → Except GraphError (α × Graph)) :
    (host.edit change).2.Tallied limit (graph.after change) runs := by
  unfold Host.edit Graph.after
  rw [tallied.current]
  cases change graph with
  | ok made => exact tallied.replace made.2
  | error error => exact tallied.replace graph

theorem guarded (tallied : host.Tallied limit graph runs) {α : Type}
    {change : Graph → Except GraphError (α × Graph)} {inUse : Bool} {name : Option String}
    {made : Except GraphError (α × Graph)} (same : change graph = guard inUse name made)
    {next : Graph} (accepted : inUse = false → graph.after (fun _ => made) = next) :
    (host.edit change).2.Tallied limit (if inUse then graph else next) runs := by
  have left : graph.after change = if inUse then graph else next := by
    unfold Graph.after
    rw [same]
    cases inUse with
    | false => exact accepted rfl
    | true => rfl
  rw [← left]
  exact tallied.edit change

theorem invoke (tallied : host.Tallied limit graph runs) (fuel : Nat) (trigger : Trigger)
    (draws : Draws) {handle : EntryPoint} {root : OutputRef}
    (found : (Program.compile graph .builtin).entries.root? handle = some root) :
    host.invoke fuel trigger draws handle =
      let (result, ctx) := ((graph.machine .builtin limit).fire fuel root).runAt
        (.ofTrigger trigger draws)
      (result.map fun _ => ctx.report, ctx.steps) := by
  have machine : host.machine = graph.machine .builtin limit := by
    rw [Host.machine, tallied.current, tallied.program, tallied.limit]
    rfl
  have emits : (graph.machine .builtin limit).emit fuel handle =
      (graph.machine .builtin limit).fire fuel root := by
    unfold Machine.emit
    rw [show (graph.machine .builtin limit).program.entries.root? handle = some root from found]
  rw [Host.invoke, machine, emits]

/-- The runs of a trigger are those from the nodes that wait for its event. -/
theorem fire (tallied : host.Tallied limit graph runs) (fits : graph.HandlesFit) (fuel : Nat)
    (trigger : Trigger) (draws : Nat → Draws) :
    (host.fire fuel trigger draws).1 =
        (graph.invocations limit fuel trigger draws).map (·.result) ∧
      (host.fire fuel trigger draws).2.Tallied limit graph
        (runs ++ graph.invocations limit fuel trigger draws) := by
  have each : ((host.program.entries.subscribers trigger.event).toList.mapIdx
      fun place entry => host.invoke fuel trigger (draws place) entry) =
        (graph.invocations limit fuel trigger draws).map fun run => (run.result, run.steps) := by
    rw [tallied.program, Graph.invocations]
    refine List.ext_getElem? fun place => ?_
    have root := congrArg (·[place]?) (Program.subscribers_compile fits trigger.event)
    rw [List.getElem?_mapIdx, List.getElem?_map, List.getElem?_mapIdx]
    simp only [List.getElem?_map] at root
    cases here : (graph.listeners trigger.event)[place]? with
    | none =>
      rw [here, Option.map_none, Option.map_eq_none_iff] at root
      rw [root]
      rfl
    | some id =>
      rw [here, Option.map_some, Option.map_eq_some_iff] at root
      obtain ⟨handle, listed, found⟩ := root
      rw [listed, Option.map_some, tallied.invoke fuel trigger (draws place) found]
      rfl
  unfold Host.fire
  rw [each, tallied.stats]
  dsimp only
  rw [List.map_map, List.foldl_map]
  refine ⟨rfl, tallied.registry, tallied.current, tallied.program, tallied.limit, ?_⟩
  rw [← Invocation.foldl_record]
  refine List.foldl_ext _ _ _ fun stats run mem => ?_
  rw [Graph.event_of_mem_invocations mem]
  rfl

private theorem fireEach (tallied : host.Tallied limit graph runs) (fits : graph.HandlesFit)
    (fuel : Nat) (trigger : Trigger) (draws : String → Nat → Draws) (names : List String)
    (results : List (Except Stop Report)) :
    let made := names.foldl (fun (made : List (Except Stop Report) × Host) event =>
      let (more, host) := made.2.fire fuel { trigger with event } (draws event)
      (made.1 ++ more, host)) (results, host)
    let more := names.flatMap fun event =>
      graph.invocations limit fuel { trigger with event } (draws event)
    made.1 = results ++ more.map (·.result) ∧ made.2.Tallied limit graph (runs ++ more) := by
  induction names generalizing host runs results with
  | nil => simpa using tallied
  | cons event names ih =>
    obtain ⟨fired, counted⟩ := tallied.fire fits fuel { trigger with event } (draws event)
    have rest := ih counted
      (results ++ (host.fire fuel { trigger with event } (draws event)).1)
    dsimp only at rest ⊢
    rw [List.foldl_cons, List.flatMap_cons, List.map_append, ← List.append_assoc,
      ← List.append_assoc,
      ← fired]
    exact rest

theorem fireWhere (tallied : host.Tallied limit graph runs) (fits : graph.HandlesFit) (fuel : Nat)
    (chosen : String → Bool) (trigger : Trigger) (draws : String → Nat → Draws) :
    (host.fireWhere fuel chosen trigger draws).1 =
        (graph.invocationsWhere limit fuel chosen trigger draws).map (·.result) ∧
      (host.fireWhere fuel chosen trigger draws).2.Tallied limit graph
        (runs ++ graph.invocationsWhere limit fuel chosen trigger draws) := by
  have events : host.program.entries.events.map (·.1) = graph.awaited := by
    rw [tallied.program, Graph.events_compile]
  unfold Host.fireWhere Graph.invocationsWhere
  rw [events]
  dsimp only
  exact tallied.fireEach fits fuel trigger draws _ []

private theorem of_silent {operation : Operation} (silent : operation.invocations limit graph = [])
    (results : (host.perform operation).1 = [])
    (next : (host.perform operation).2.Tallied limit (operation.edited graph) runs) :
    (host.perform operation).1 = (operation.invocations limit graph).map (·.result) ∧
      (host.perform operation).2.Tallied limit (operation.edited graph)
        (runs ++ operation.invocations limit graph) := by
  rw [silent, List.append_nil]
  exact ⟨results, next⟩

theorem perform (tallied : host.Tallied limit graph runs) (fits : graph.HandlesFit)
    (operation : Operation) :
    (host.perform operation).1 = (operation.invocations limit graph).map (·.result) ∧
      (host.perform operation).2.Tallied limit (operation.edited graph)
        (runs ++ operation.invocations limit graph) := by
  cases operation with
  | fire fuel trigger draws => exact tallied.fire fits fuel trigger draws
  | fireMatching fuel pattern trigger draws =>
    rw [Host.perform, fireMatching_eq]
    exact tallied.fireWhere fits fuel _ trigger draws
  | fireWhere fuel chosen trigger draws => exact tallied.fireWhere fits fuel chosen trigger draws
  | edit change => exact of_silent rfl rfl (tallied.edit change)
  | replace next => exact of_silent rfl rfl (tallied.replace next)
  | redefineFunction id next =>
    refine of_silent rfl rfl (tallied.guarded rfl fun _ => ?_)
    rcases graph.redefineFunction id next with _ | _ | _ <;> rfl
  | removeFunction id => exact of_silent rfl rfl (tallied.guarded rfl fun _ => rfl)
  | redefineStruct id next =>
    refine of_silent rfl rfl (tallied.guarded rfl fun _ => ?_)
    rcases graph.redefineStruct id next with _ | _ | _ <;> rfl
  | removeStruct id => exact of_silent rfl rfl (tallied.guarded rfl fun _ => rfl)

theorem performAll (tallied : host.Tallied limit graph runs) (operations : List Operation)
    (fits : ∀ before, before <+: operations → (before.foldl Operation.edited graph).HandlesFit) :
    (host.performAll operations).1 =
        (Operation.history limit graph operations).map (·.map (·.result)) ∧
      (host.performAll operations).2.Tallied limit (operations.foldl Operation.edited graph)
        (runs ++ (Operation.history limit graph operations).flatten) := by
  induction operations generalizing host graph runs with
  | nil =>
    rw [← List.append_nil runs] at tallied
    exact ⟨rfl, tallied⟩
  | cons operation operations ih =>
    obtain ⟨results, next⟩ := tallied.perform (fits [] List.nil_prefix) operation
    obtain ⟨all, last⟩ := ih next fun before first =>
      fits (operation :: before) (List.cons_prefix_cons.2 ⟨rfl, first⟩)
    rw [Operation.history, List.map_cons, List.flatten_cons, ← List.append_assoc]
    refine ⟨?_, last⟩
    rw [← all, ← results]
    rfl

end Tallied

end Host

end NodeScript
