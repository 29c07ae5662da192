import NodeScript.Proofs.Catalog.Leads
import NodeScript.Proofs.Run.Announced
import NodeScript.Proofs.Run.Reloaded

/-!
Runs of a graph that has been written and read. The nodes stand at other addresses, functions and
structs have other ones, and signals find their wires at other places, but each part of a run does
what it did before. Main statement: `Graph.Reloaded.emit_moved`.
-/

set_option autoImplicit false
set_option relaxedAutoImplicit false

namespace NodeScript

open Format

namespace Graph.Reloaded

variable {graph next : Graph} (reloaded : graph.Reloaded next)
include reloaded

/-- The nodes of registered types come in the same order. -/
theorem builtins : graph.renumbering.Entries graph.builtins next.builtins := by
  have alive : List.Forall₂ (fun entry entry' => graph.number? entry.1 = some entry'.1 ∧
      entry.2.form.builtin? = entry'.2.form.builtin?) graph.live next.live := by
    have full := reloaded.mirrored.full
    have size := reloaded.mirrored.size
    refine List.forall₂_iff_get.2 ⟨(full.live_length.trans size).symm, fun i inside inside' => ?_⟩
    have number := List.getElem?_eq_getElem inside
    have number' := List.getElem?_eq_getElem inside'
    rw [List.get_eq_getElem, List.get_eq_getElem]
    generalize graph.live[i] = entry at number ⊢
    generalize next.live[i] = entry' at number' ⊢
    obtain ⟨id, node⟩ := entry
    obtain ⟨id', node'⟩ := entry'
    have there := node?_of_number number'
    rw [full.live_eq, Option.map_eq_some_iff] at number'
    obtain ⟨_, -, same⟩ := number'
    obtain rfl : (⟨i⟩ : NodeId) = id' := congrArg Prod.fst same
    have address : graph.number? id = some ⟨i⟩ := number?_eq_some_iff.2 ⟨node, number⟩
    have builtin := reloaded.builtin?_eq address
    rw [builtin?, builtin?, form?_eq_of_node? (node?_of_number number),
      form?_eq_of_node? there] at builtin
    exact ⟨address, builtin⟩
  refine List.rel_filterMap ?_ alive
  rintro ⟨id, node⟩ ⟨id', node'⟩ ⟨address, same⟩
  dsimp only at same ⊢
  rw [same]
  cases node'.form.builtin? with
  | none => exact .none
  | some builtin => exact .some ⟨address, rfl⟩

/-- The same is announced. -/
theorem entries : (Program.compile graph .builtin).entries.Moved graph.renumbering
    (Program.compile next .builtin).entries := by
  rw [Program.entries_compile, Program.entries_compile]
  exact Program.announced_moved reloaded.builtins (.empty _)

/-- A node of a registered type runs as its type says. -/
theorem behavior (limit : Nat) {id id' : NodeId} (address : graph.number? id = some id')
    {form : Form} {type : String} (here : graph.form? id = some form)
    (kind : form.kind = .builtin type) : ∃ behavior known,
      (graph.machine .builtin limit).behavior id = pure behavior ∧
      (next.machine .builtin limit).behavior id' = pure behavior ∧
      Registry.builtin.behavior? type = some behavior ∧
      behavior.ports form.config known = .ok form.ports := by
  obtain ⟨behavior, known, registered, declared⟩ := reloaded.formed.admitted here kind
  have builtin := builtin?_eq_some here kind
  have builtin' : next.builtin? id' = some (type, form.config) :=
    (reloaded.builtin?_eq address).symm.trans builtin
  exact ⟨behavior, known, behavior_machine builtin registered limit,
    behavior_machine builtin' registered limit, registered, declared⟩

end Graph.Reloaded

def Moving.Goes (moving : Moving) (id : NodeId) (flow flow' : Flow) : Prop :=
  flow = flow' ∧ ∀ slot, flow = .next slot → moving.leaves id slot

namespace Machine

open Run

/-- The parts of a run do the same at other addresses, whatever calls are open. -/
structure Parts.Moved (graph : Graph) (parts parts' : Parts) : Prop where
  fire : ∀ {source source' : OutputRef} (stack : List (Option NodeId)),
    graph.renumbering.Output source source' → graph.renumbering.leaves source.node source.slot →
    Run.Moved graph.renumbering stack Eq (parts.fire source) (parts'.fire source')
  execute : ∀ {target target' : InputRef} {port : Port} (stack : List (Option NodeId)),
    graph.renumbering.Input target target' → graph.inputPort? target = some port →
    port.isSignal = true → Run.Moved graph.renumbering stack (graph.renumbering.Goes target.node)
      (parts.execute target) (parts'.execute target')
  pull : ∀ {target target' : InputRef} (stack : List (Option NodeId)),
    graph.renumbering.Input target target' →
    Run.Moved graph.renumbering stack Eq (parts.pull target) (parts'.pull target')
  evaluate : ∀ {source source' : OutputRef} (stack : List (Option NodeId)),
    graph.renumbering.Output source source' →
    Run.Moved graph.renumbering stack Eq (parts.evaluate source) (parts'.evaluate source')

def signalled (graph : Graph) (id : NodeId) (chains : Nat → Run Unit) (slot : Nat) : Run Unit :=
  if (graph.outputPort? ⟨id, slot⟩).any (·.isSignal) then chains slot else throw .outOfFuel

section

variable {graph next : Graph} {limit fuel : Nat} {parts parts' : Parts}
  {stack : List (Option NodeId)} {source source' : OutputRef} {target target' : InputRef}

theorem execute_signalled {behavior : Behavior} (leads : behavior.Leads) {id : NodeId} {form : Form}
    (here : graph.form? id = some form) {known : List Schema} {scope : Scope}
    (declared : behavior.ports scope.config known = .ok form.ports) (slot : Nat) :
    behavior.execute { scope with fire := signalled graph id scope.fire } slot =
      behavior.execute scope slot := by
  refine leads.chains declared _ (fun slot port out signal => ?_) slot
  have found : graph.outputPort? ⟨id, slot⟩ = some port := by
    rw [Graph.outputPort?, here]
    exact out
  rw [signalled, found, if_pos (by exact signal)]

theorem moved_step (moving : Moving) (stack : List (Option NodeId)) :
    Run.Moved moving stack Eq step step := by
  refine .changing fun _ _ same => ?_
  exact { same with steps := congrArg (· + 1) same.steps }

theorem moved_openCall {moving : Moving} {α α' β β' : Type} {rel : α → α' → Prop}
    {rel' : β → β' → Prop} {run : Run α} {run' : Run α'} {after : Except Stop α × Frame → Run β}
    {after' : Except Stop α' × Frame → Run β'} {call call' : NodeId}
    (address : moving.address? call = some call')
    (body : Run.Moved moving (some call :: stack) rel run run')
    (rest : ∀ result result' frame frame', EndsAlike moving.address? rel result result' →
      frame.call = some call → frame.Moved moving frame' →
        Run.Moved moving stack rel' (after (result, frame)) (after' (result', frame'))) :
    Run.Moved moving stack rel'
      ((graph.machine .builtin limit).openCall call >>= fun _ => leaving run >>= after)
      ((next.machine .builtin limit).openCall call' >>= fun _ => leaving run' >>= after') := by
  rw [openCall_bind, openCall_bind]
  refine .looking fun ctx ctx' same => ?_
  rw [same.depth]
  show Run.Moved moving stack rel' (if limit < ctx'.depth then _ else _)
    (if limit < ctx'.depth then _ else _)
  split
  · exact .fail rfl
  · exact .leaving address body rest

theorem moved_afterBody {moving : Moving} {call call' : NodeId}
    (address : moving.address? call = some call') {result result' : Except Stop Unit}
    {frame frame' : Frame} (ends : EndsAlike moving.address? Eq result result')
    (called : frame.call = some call) (top : frame.Moved moving frame') :
    Run.Moved moving stack (moving.Goes call)
      (afterBody call (result, frame)) (afterBody call' (result', frame')) := by
  refine (Run.Moved.liftExcept ends).bind fun _ _ _ => ?_
  dsimp only
  rw [← top.returned]
  cases returned : frame.returned with
  | none => exact .pure ⟨rfl, fun _ same => by simp at same⟩
  | some exit =>
    refine Run.Moved.bind (.changing fun ctx ctx' same => same.change rfl ?_) fun _ _ _ =>
      .pure ⟨rfl, fun slot same => ?_⟩
    · have caller := same.top
      refine { caller with callResults := ?_ }
      rw [← top.results]
      exact caller.callResults.put address frame.results
    · obtain rfl := Flow.next.inj same
      exact top.leaves called returned

variable (moved : parts.Moved graph parts') (reloaded : graph.Reloaded next)
include moved reloaded

theorem moved_fireWith (same : graph.renumbering.Output source source')
    (leaves : graph.renumbering.leaves source.node source.slot) :
    Run.Moved graph.renumbering stack Eq ((graph.machine .builtin limit).fireWith parts source)
      ((next.machine .builtin limit).fireWith parts' source') := by
  have onwards : Option.Rel graph.renumbering.Input
      ((graph.machine .builtin limit).graph.signalTarget? source)
      ((next.machine .builtin limit).graph.signalTarget? source') := reloaded.target same leaves
  obtain ⟨port, out, signal⟩ := leaves
  rw [fireWith_eq, fireWith_eq]
  generalize leads : (graph.machine .builtin limit).graph.signalTarget? source = target? at onwards
  generalize (next.machine .builtin limit).graph.signalTarget? source' = target?' at onwards
  cases onwards with
  | none => exact .pure rfl
  | @some target target' there =>
    obtain ⟨port', found, same'⟩ := reloaded.formed.wired.target_port out leads
    refine (moved.execute stack there found (same'.trans signal)).bind fun flow flow' flows => ?_
    obtain ⟨rfl, exits⟩ := flows
    cases flow with
    | done => exact .pure rfl
    | next slot => exact moved.fire stack ⟨there.1, rfl⟩ (exits slot rfl)

theorem moved_call (same : graph.renumbering.Input target target') {f f' : FunctionId} {port : Port}
    (calls : graph.HasKind target.node (.call f))
    (alike : graph.Alike next (.call f) (.call f'))
    (found : graph.inputPort? target = some port) (signal : port.isSignal = true) :
    Run.Moved graph.renumbering stack (graph.renumbering.Goes target.node)
      ((graph.machine .builtin limit).call parts target f)
      ((next.machine .builtin limit).call parts' target' f') := by
  have calls' := (reloaded.hasKind_iff alike same.1).1 calls
  obtain ⟨entry, exit, entry', exit', nodes, nodes', begins, -, has, -⟩ :=
    reloaded.boundaryNodes limit calls calls' alike
  have body : Run.Moved graph.renumbering (some target.node :: stack) Eq
      (parts.fire ⟨entry, target.slot⟩) (parts'.fire ⟨entry', target'.slot⟩) :=
    moved.fire _ ⟨begins, same.2⟩
      ⟨port, (reloaded.formed.argument_ports calls has target.slot).trans found, signal⟩
  rw [call_eq, call_eq, nodes, nodes', pure_bind, pure_bind]
  exact moved_openCall same.1 body fun result result' frame frame' => moved_afterBody same.1

omit moved in
theorem moved_currentCall {boundary boundary' : NodeId}
    (address : graph.number? boundary = some boundary') {f f' : FunctionId}
    (alike : graph.Alike next (.call f) (.call f')) :
    Run.Moved graph.renumbering stack
      (fun call call' => graph.number? call = some call' ∧ graph.HasKind call (.call f) ∧
        ∃ rest, stack = some call :: rest)
      ((graph.machine .builtin limit).currentCall boundary f)
      ((next.machine .builtin limit).currentCall boundary' f') := by
  intro ctx ctx' same
  have frames := same.top.call
  obtain ⟨call, opened, calls, done⟩ | ⟨other, stopped⟩ :=
    (graph.machine .builtin limit).currentCall_cases boundary f ctx
  all_goals obtain ⟨call', opened', calls', done'⟩ | ⟨other', stopped'⟩ :=
    (next.machine .builtin limit).currentCall_cases boundary' f' ctx'
  · rw [opened, opened'] at frames
    cases frames with
    | some number =>
      rw [done, done']
      refine ⟨.ok ⟨number, calls, ctx.callers.map (·.call), ?_⟩, same⟩
      rw [← same.calls, Context.frames, List.map_cons, opened]
  · rw [opened] at frames
    generalize reached : ctx'.top.call = call?' at frames
    cases frames with
    | some number =>
      exact absurd ((reloaded.hasKind_iff alike number).1 calls) (other' _ reached)
  · rw [opened'] at frames
    generalize reached : ctx.top.call = call? at frames
    cases frames with
    | some number =>
      exact absurd ((reloaded.hasKind_iff alike number).2 calls') (other _ reached)
  · rw [stopped, stopped']
    exact ⟨.error (.fault (congrArg (Option.map RunError.outsideFunction) address)), same⟩

theorem moved_collect (same : graph.renumbering.Input target target') {f f' : FunctionId}
    {node node' : Node} {port : Port} (ends : graph.HasKind target.node (.functionOutput f))
    (bare : node'.bare.inputs = node.bare.inputs)
    (alike : graph.Alike next (.call f) (.call f'))
    (found : graph.inputPort? target = some port) (signal : port.isSignal = true) :
    Run.Moved graph.renumbering stack (graph.renumbering.Goes target.node)
      ((graph.machine .builtin limit).collect parts target node f)
      ((next.machine .builtin limit).collect parts' target' node' f') := by
  rw [collect_bare _ _ _ node, collect_bare _ _ _ node']
  unfold collect
  rw [bare]
  refine (moved_currentCall reloaded same.1 alike).bind fun call call' called => ?_
  obtain ⟨-, calls, rest, rfl⟩ := called
  have each : ∀ item ∈ node.bare.inputs.zipIdx, Run.Moved graph.renumbering (some call :: rest) Eq
      (if item.1.port.isSignal then pure none
        else (parts.pull ⟨target.node, item.2⟩).orMissing)
      (if item.1.port.isSignal then pure none
        else (parts'.pull ⟨target'.node, item.2⟩).orMissing) := by
    intro item _
    split
    · exact .pure rfl
    · exact .orMissing (moved.pull _ ⟨same.1, rfl⟩)
  refine (Run.Moved.mapM (List.forall₂_same.2 each)).bind fun results results' values => ?_
  subst values
  refine Run.Moved.bind (.changing fun ctx ctx' moved => moved.change rfl ?_) fun _ _ _ =>
    .pure ⟨rfl, fun _ same => by simp at same⟩
  have opened : ctx.top.call = some call := (List.cons.inj moved.calls).1
  refine { moved.top with results := rfl, returned := congrArg some same.2, leaves := ?_ }
  intro call' exit opened' returned
  obtain rfl := Option.some.inj (opened.symm.trans opened')
  obtain rfl := Option.some.inj returned
  exact ⟨port, (reloaded.formed.result_ports calls ends target.slot).symm.trans found, signal⟩

theorem moved_scope {id id' : NodeId} (address : graph.number? id = some id') (config : Json) :
    ((graph.machine .builtin limit).scope fuel parts id config).Moved graph.renumbering stack False
      ((next.machine .builtin limit).scope fuel parts' id' config) where
  node := address
  config := rfl
  slots := reloaded.entries.slotsOf address
  fuel := rfl
  input _ := moved.pull stack ⟨address, rfl⟩
  fire := False.elim

theorem moved_acting {id id' : NodeId} (address : graph.number? id = some id') (config : Json) :
    ({ (graph.machine .builtin limit).scope fuel parts id config with
        fire := signalled graph id fun slot => parts.fire ⟨id, slot⟩ } : Scope).Moved
      graph.renumbering stack True
      { (next.machine .builtin limit).scope fuel parts' id' config with
        fire := signalled graph id fun slot => parts'.fire ⟨id', slot⟩ } := by
  refine { moved_scope moved reloaded address config with fire := fun _ slot => ?_ }
  dsimp only
  unfold signalled
  split
  · rename_i signal
    exact moved.fire stack ⟨address, rfl⟩ ((Option.any_eq_true _ _).1 signal)
  · exact .throw .outOfFuel

theorem moved_builtin (same : graph.renumbering.Input target target') {node : Node} {type : String}
    (here : graph.node? target.node = some node) (kind : node.kind = .builtin type) :
    Run.Moved graph.renumbering stack (graph.renumbering.Goes target.node)
      ((graph.machine .builtin limit).behavior target.node >>= fun behavior => behavior.execute
        ((graph.machine .builtin limit).scope fuel parts target.node node.config) target.slot)
      ((next.machine .builtin limit).behavior target'.node >>= fun behavior => behavior.execute
        ((next.machine .builtin limit).scope fuel parts' target'.node node.config)
          target.slot) := by
  have form := Graph.form?_eq_of_node? here
  obtain ⟨behavior, known, runs, runs', registered, ports⟩ :=
    reloaded.behavior limit same.1 form kind
  have leads := Registry.builtin_leads type behavior registered
  have made := (Registry.builtin_made type behavior registered).execute target.slot
  -- Only the chains behind signals are related, and the node runs no others.
  have alone : behavior.execute _ target.slot = behavior.execute
      ((graph.machine .builtin limit).scope fuel parts target.node node.config) target.slot :=
    execute_signalled leads form ports target.slot
  have alone' : behavior.execute _ target.slot = behavior.execute
      ((next.machine .builtin limit).scope fuel parts' target'.node node.config) target.slot :=
    execute_signalled leads form ports target.slot
  rw [runs, runs', pure_bind, pure_bind, ← alone, ← alone']
  refine (made.moved (moved_acting moved reloaded same.1 node.config)).and fun ctx flow done => ?_
  intro slot goes
  obtain ⟨port, out, signal⟩ := leads.next ports target.slot ctx flow done slot goes
  exact ⟨port, by rw [Graph.outputPort?, form]; exact out, signal⟩

theorem moved_executeWith (same : graph.renumbering.Input target target') {port : Port}
    (found : graph.inputPort? target = some port) (signal : port.isSignal = true) :
    Run.Moved graph.renumbering stack (graph.renumbering.Goes target.node)
      ((graph.machine .builtin limit).executeWith fuel parts target)
      ((next.machine .builtin limit).executeWith fuel parts' target') := by
  obtain ⟨node, node', here, there, alike, bare⟩ := reloaded.node same.1
  unfold executeWith
  rw [show (graph.machine .builtin limit).graph.node? target.node = some node from here,
    show (next.machine .builtin limit).graph.node? target'.node = some node' from there]
  refine (moved_step _ stack).bind fun _ _ _ => ?_
  have refused : Run.Moved graph.renumbering stack (graph.renumbering.Goes target.node)
      (.fail (.notASignalInput target.node target.slot))
      (.fail (.notASignalInput target'.node target'.slot)) := by
    refine .fail ?_
    rw [← same.2]
    exact congrArg (Option.map (RunError.notASignalInput · target.slot)) same.1
  have inputs : node'.bare.inputs = node.bare.inputs := by
    have fields := congrArg (fun node : Node => node.inputs) bare
    exact fields
  generalize kind : node.kind = type at alike
  generalize node'.kind = type' at alike
  cases alike with
  | builtin type =>
    dsimp only
    rw [Node.config_eq_of_bare bare, ← same.2]
    exact moved_builtin moved reloaded same here kind
  | call known known' =>
    exact moved_call moved reloaded same (Graph.hasKind_iff.2 ⟨node, here, kind⟩)
      (.call known known') found signal
  | functionOutput known known' =>
    exact moved_collect moved reloaded same (Graph.hasKind_iff.2 ⟨node, here, kind⟩) inputs
      (.call known known') found signal
  | functionInput => exact refused
  | construct => exact refused

theorem moved_pullWith (same : graph.renumbering.Input target target') :
    Run.Moved graph.renumbering stack Eq ((graph.machine .builtin limit).pullWith parts target)
      ((next.machine .builtin limit).pullWith parts' target') := by
  rw [pullWith_eq, pullWith_eq]
  cases found : graph.input? target with
  | none =>
    rw [show (graph.machine .builtin limit).graph.input? target = none from found,
      show (next.machine .builtin limit).graph.input? target' = none from
        reloaded.input_none same found]
    exact .fail (congrArg (Option.map RunError.unknownNode) same.1)
  | some input =>
    obtain ⟨input', found', port, literal, wire⟩ := reloaded.input same found
    rw [show (graph.machine .builtin limit).graph.input? target = some input from found,
      show (next.machine .builtin limit).graph.input? target' = some input' from found']
    dsimp only
    generalize input.source? = source? at wire
    generalize input'.source? = source?' at wire
    cases wire with
    | some there => exact moved.evaluate stack there
    | none =>
      dsimp only
      rw [← literal, ← port]
      cases input.literal? with
      | some v => exact .pure rfl
      | none => exact .fail (congrArg (Option.map (RunError.missingValue · input.port.name)) same.1)

theorem moved_callOutput (same : graph.renumbering.Output source source') {f f' : FunctionId}
    (calls : graph.HasKind source.node (.call f))
    (alike : graph.Alike next (.call f) (.call f')) :
    Run.Moved graph.renumbering stack Eq
      ((graph.machine .builtin limit).callOutput parts source f)
      ((next.machine .builtin limit).callOutput parts' source' f') := by
  unfold callOutput
  refine .looking fun ctx ctx' moved' => ?_
  rw [moved'.top.callResults.lookup_eq same.1, same.2]
  split
  · exact .pure rfl
  · have calls' := (reloaded.hasKind_iff alike same.1).1 calls
    obtain ⟨entry, exit, entry', exit', nodes, nodes', -, ends, -⟩ :=
      reloaded.boundaryNodes limit calls calls' alike
    have body : Run.Moved graph.renumbering (some source.node :: stack) Eq
        (parts.pull ⟨exit, source'.slot⟩) (parts'.pull ⟨exit', source'.slot⟩) :=
      moved.pull _ ⟨ends, rfl⟩
    rw [nodes, nodes']
    exact moved_openCall same.1 body fun result result' frame frame' ends _ _ => .liftExcept ends

theorem moved_argument (same : graph.renumbering.Output source source') {f f' : FunctionId}
    (alike : graph.Alike next (.call f) (.call f')) :
    Run.Moved graph.renumbering stack Eq
      ((graph.machine .builtin limit).currentCall source.node f >>= fun call =>
        inCaller (parts.pull ⟨call, source.slot⟩))
      ((next.machine .builtin limit).currentCall source'.node f' >>= fun call =>
        inCaller (parts'.pull ⟨call, source'.slot⟩)) := by
  refine (moved_currentCall reloaded same.1 alike).bind fun call call' called => ?_
  obtain ⟨address, -, rest, rfl⟩ := called
  exact .inCaller (moved.pull rest ⟨address, same.2⟩)

omit reloaded in
theorem moved_construct (same : graph.renumbering.Output source source') {s s' : StructId}
    {schema : Schema} (known : graph.schemaAt? s = some schema)
    (known' : next.schemaAt? s' = some schema) :
    Run.Moved graph.renumbering stack Eq
      ((graph.machine .builtin limit).construct parts source s)
      ((next.machine .builtin limit).construct parts' source' s') := by
  rw [construct_eq, construct_eq,
    show (graph.machine .builtin limit).graph.schemaAt? s = some schema from known,
    show (next.machine .builtin limit).graph.schemaAt? s' = some schema from known']
  have each : ∀ item ∈ schema.fields.zipIdx, Run.Moved graph.renumbering stack Eq
      (parts.pull ⟨source.node, item.2⟩ >>= fun v => pure (item.1.name, v))
      (parts'.pull ⟨source'.node, item.2⟩ >>= fun v => pure (item.1.name, v)) :=
    fun item _ => .bind (moved.pull stack ⟨same.1, rfl⟩) fun v v' same =>
      .pure (congrArg (Prod.mk _) same)
  exact (Run.Moved.mapM (List.forall₂_same.2 each)).bind fun fields fields' same =>
    .pure (congrArg (Value.struct _) same)

theorem moved_evaluateWith (same : graph.renumbering.Output source source') :
    Run.Moved graph.renumbering stack Eq
      ((graph.machine .builtin limit).evaluateWith fuel parts source)
      ((next.machine .builtin limit).evaluateWith fuel parts' source') := by
  obtain ⟨node, node', here, there, alike, bare⟩ := reloaded.node same.1
  rw [evaluateWith_eq, evaluateWith_eq,
    show (graph.machine .builtin limit).graph.node? source.node = some node from here,
    show (next.machine .builtin limit).graph.node? source'.node = some node' from there]
  dsimp only
  have signal : (node.outputs[source.slot]?).all (·.port.isSignal) =
      (node'.outputs[source'.slot]?).all (·.port.isSignal) := by
    have ports := congrArg (Option.all (·.isSignal)) (reloaded.outputPort?_eq same)
    simpa [Graph.outputPort?, Graph.form?_eq_of_node? here, Graph.form?_eq_of_node? there,
      Node.form, Node.ports, Option.all_map, Function.comp_def] using ports
  have refused : Run.Moved graph.renumbering stack Eq
      (.fail (.notAValueOutput source.node source.slot) : Run Value)
      (.fail (.notAValueOutput source'.node source'.slot)) := by
    refine .fail ?_
    rw [← same.2]
    exact congrArg (Option.map (RunError.notAValueOutput · source.slot)) same.1
  rw [signal]
  split
  · exact refused
  refine (moved_step _ stack).bind fun _ _ _ => ?_
  generalize kind : node.kind = type at alike
  generalize node'.kind = type' at alike
  cases alike with
  | builtin type =>
    obtain ⟨behavior, known, runs, runs', registered, -⟩ :=
      reloaded.behavior limit same.1 (Graph.form?_eq_of_node? here) kind
    dsimp only
    rw [runs, runs', pure_bind, pure_bind, Node.config_eq_of_bare bare, ← same.2]
    have made := (Registry.builtin_made type behavior registered).evaluate source.slot
    exact made.moved (moved_scope moved reloaded same.1 node.config)
  | call known known' =>
    exact moved_callOutput moved reloaded same (Graph.hasKind_iff.2 ⟨node, here, kind⟩)
      (.call known known')
  | functionInput known known' => exact moved_argument moved reloaded same (.call known known')
  | construct known known' => exact moved_construct moved same known known'
  | functionOutput => exact refused

end

theorem parts_moved {graph next : Graph} (reloaded : graph.Reloaded next) (limit fuel : Nat) :
    ((graph.machine .builtin limit).parts fuel).Moved graph
      ((next.machine .builtin limit).parts fuel) := by
  induction fuel with
  | zero => exact ⟨fun _ _ _ => .throw .outOfFuel, fun _ _ _ _ => .throw .outOfFuel,
      fun _ _ => .throw .outOfFuel, fun _ _ => .throw .outOfFuel⟩
  | succ fuel ih =>
    exact ⟨fun _ => moved_fireWith ih reloaded, fun _ same found signal =>
        moved_executeWith ih reloaded same found signal,
      fun _ => moved_pullWith ih reloaded, fun _ => moved_evaluateWith ih reloaded⟩

end Machine

/-- A run from an entry point does the same as one of the graph that has been read, from the entry
point of the same number. -/
theorem Graph.Reloaded.emit_moved {graph next : Graph} (reloaded : graph.Reloaded next)
    (limit fuel : Nat) (entry : EntryPoint) :
    Run.Moved graph.renumbering [none] Eq ((graph.machine .builtin limit).emit fuel entry)
      ((next.machine .builtin limit).emit fuel entry) := by
  unfold Machine.emit
  have root : Option.Rel graph.renumbering.Output
      ((graph.machine .builtin limit).program.entries.root? entry)
      ((next.machine .builtin limit).program.entries.root? entry) := reloaded.entries.root? entry
  generalize begins : (graph.machine .builtin limit).program.entries.root? entry = root? at root
  generalize (next.machine .builtin limit).program.entries.root? entry = root?' at root
  cases root with
  | none => exact .fail rfl
  | some same =>
    exact (Machine.parts_moved reloaded limit fuel).fire [none] same
      ⟨_, reloaded.formed.root_port begins, rfl⟩

end NodeScript
