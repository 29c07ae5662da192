import NodeScript.Proofs.Catalog.Typed
import NodeScript.Proofs.Format.Loaded
import NodeScript.Proofs.Run.Isolated
import NodeScript.Proofs.Run.Vacated

/-!
Runs of scripts keep to types. Where no field of a struct is a signal and each variable is used with
one type, every value that an input gives is of the type of its port, and a run ends with a fault
only for reasons that no check of types could rule out. Main statement: `Graph.IsScript.emit_typed`.
-/

set_option autoImplicit false
set_option relaxedAutoImplicit false

namespace NodeScript

open Run

def Form.named? (form : Form) : Option (String × DataType) :=
  let slot? :=
    if form.kind = .builtin Catalog.getVariable.id then some 0
    else if form.kind = .builtin Catalog.setVariable.id then some 1
    else none
  (slot?.bind (form.ports.outputs[·]?)).map fun port =>
    (Catalog.variableName.value form.config, port.type)

def Form.SameVariable (form form' : Form) : Prop :=
  ∀ used ∈ form.named?, ∀ used' ∈ form'.named?, used.1 = used'.1 →
    used.2.same used'.2 = true

instance (form form' : Form) : Decidable (form.SameVariable form') :=
  inferInstanceAs (Decidable (∀ used ∈ form.named?, ∀ used' ∈ form'.named?,
    used.1 = used'.1 → used.2.same used'.2 = true))

theorem Form.Uses.named? {slots : List Slot} {form : Form} {name : String} {type : DataType}
    (uses : form.Uses slots (.named name) type) : form.named? = some (name, type) := by
  cases uses with
  | get kind output => simp [Form.named?, kind, output]
  | set kind output =>
    have other : Catalog.setVariable.id ≠ Catalog.getVariable.id := by decide
    simp [Form.named?, kind, output, other]

namespace Graph

theorem Wired.source_port {graph : Graph} (wired : graph.Wired) {target : InputRef} {input : Input}
    {wire : Wire} (found : graph.input? target = some input) (mem : wire ∈ input.wires) :
    ∃ port, graph.outputPort? wire.source = some port ∧ port.type.same input.port.type = true := by
  obtain ⟨output, out, -, same⟩ := wired.source found mem
  exact ⟨output.port, by rw [outputPort?_eq, out]; rfl, same⟩

theorem Wired.target_port {graph : Graph} (wired : graph.Wired) {source : OutputRef}
    {target : InputRef} {port : Port} (found : graph.outputPort? source = some port)
    (leads : graph.signalTarget? source = some target) :
    ∃ port', graph.inputPort? target = some port' ∧ port'.isSignal = port.isSignal := by
  rw [signalTarget?_eq, Option.bind_eq_some_iff] at leads
  obtain ⟨output, out, first⟩ := leads
  obtain ⟨input, hi, wire, mem, rfl⟩ := wired.target out (List.mem_of_head? first)
  obtain ⟨port', found', same⟩ := wired.source_port hi mem
  obtain rfl := Option.some.inj (found.symm.trans found')
  exact ⟨input.port, by rw [inputPort?_eq, hi]; rfl, (DataType.isSignal_of_same same).symm⟩

section

variable {admits : Admits} {graph : Graph} {f : FunctionId} {call boundary : NodeId}

theorem WellFormed.function_ports (formed : graph.WellFormed admits) {kind : NodeKind}
    {id : NodeId} (has : graph.HasKind id kind) (of : kind.function? = some f) :
    ∃ signature, graph.signature? f = some signature ∧
      (∀ slot, graph.inputPort? ⟨id, slot⟩ = (kind.portsOf signature).inputs[slot]?) ∧
      ∀ slot, graph.outputPort? ⟨id, slot⟩ = (kind.portsOf signature).outputs[slot]? := by
  obtain ⟨form, here, rfl⟩ := has
  have fits := formed.fit here
  have defined : graph.definedPorts form.kind = .ok form.ports := by
    unfold Fits at fits
    cases kind : form.kind <;> simp only [kind, NodeKind.function?, reduceCtorEq] at fits of
    all_goals exact fits.1
  obtain ⟨signature, found, made⟩ := signature_of_definedPorts of defined
  refine ⟨signature, found, fun slot => ?_, fun slot => ?_⟩
  · rw [inputPort?, here, ← made]
    rfl
  · rw [outputPort?, here, ← made]
    rfl

theorem WellFormed.construct_ports (formed : graph.WellFormed admits) {id : NodeId} {s : StructId}
    (has : graph.HasKind id (.construct s)) :
    ∃ schema, graph.schemaAt? s = some schema ∧
      (∀ slot, graph.inputPort? ⟨id, slot⟩ = schema.ports.inputs[slot]?) ∧
      ∀ slot, graph.outputPort? ⟨id, slot⟩ = schema.ports.outputs[slot]? := by
  obtain ⟨form, here, kind⟩ := has
  have fits := formed.fit here
  simp only [Fits, kind, definedPorts_construct] at fits
  cases found : graph.schemaAt? s with
  | none => simp [found] at fits
  | some schema =>
    rw [found] at fits
    have made : schema.ports = form.ports := Except.ok.inj fits.1
    refine ⟨schema, rfl, fun slot => ?_, fun slot => ?_⟩
    · rw [inputPort?, here, made]
      rfl
    · rw [outputPort?, here, made]
      rfl

theorem WellFormed.argument_ports (formed : graph.WellFormed admits)
    (calls : graph.HasKind call (.call f)) (entry : graph.HasKind boundary (.functionInput f))
    (slot : Nat) : graph.outputPort? ⟨boundary, slot⟩ = graph.inputPort? ⟨call, slot⟩ := by
  obtain ⟨signature, found, inputs, -⟩ := formed.function_ports calls rfl
  obtain ⟨signature', found', -, outputs⟩ := formed.function_ports entry rfl
  obtain rfl := Option.some.inj (found.symm.trans found')
  exact (outputs slot).trans (inputs slot).symm

theorem WellFormed.result_ports (formed : graph.WellFormed admits)
    (calls : graph.HasKind call (.call f)) (exit : graph.HasKind boundary (.functionOutput f))
    (slot : Nat) : graph.inputPort? ⟨boundary, slot⟩ = graph.outputPort? ⟨call, slot⟩ := by
  obtain ⟨signature, found, -, outputs⟩ := formed.function_ports calls rfl
  obtain ⟨signature', found', inputs, -⟩ := formed.function_ports exit rfl
  obtain rfl := Option.some.inj (found.symm.trans found')
  exact (inputs slot).trans (outputs slot).symm

/-- What a call finds of its function. -/
theorem WellFormed.boundaryNodes (formed : graph.WellFormed admits) (registry : Registry)
    (limit : Nat) (calls : graph.HasKind call (.call f)) :
    ∃ entry exit, (graph.machine registry limit).boundaryNodes call f = pure (entry, exit) ∧
      graph.HasKind entry (.functionInput f) ∧ graph.HasKind exit (.functionOutput f) := by
  obtain ⟨signature, found, -⟩ := formed.function_ports calls rfl
  obtain ⟨function, here, -⟩ := Option.map_eq_some_iff.1 found
  obtain ⟨mem, rfl⟩ := formed.declared.function?_iff.1 here
  obtain ⟨entry, input⟩ := Option.isSome_iff_exists.1 (formed.complete.inputs function mem)
  obtain ⟨exit, output⟩ := Option.isSome_iff_exists.1 (formed.complete.outputs function mem)
  refine ⟨entry, exit, ?_, formed.owned.inputs function mem entry input,
    formed.owned.outputs function mem exit output⟩
  unfold Machine.boundaryNodes Graph.machine
  dsimp only
  rw [here]
  obtain ⟨id, signature, input', output'⟩ := function
  obtain rfl : input' = some entry := input
  obtain rfl : output' = some exit := output
  rfl

end

/-- No field of a struct is a signal. -/
def FieldsAreValues (graph : Graph) : Prop :=
  ∀ entry ∈ graph.structs, ∀ field ∈ entry.schema.fields, field.type.isSignal = false

theorem WellFormed.field_isSignal {admits : Admits} {graph : Graph}
    (formed : graph.WellFormed admits) (values : graph.FieldsAreValues) {s : StructId}
    {schema : Schema} (found : graph.schemaAt? s = some schema) {field : Field}
    (mem : field ∈ schema.fields) : field.type.isSignal = false := by
  obtain ⟨entry, declared, -, rfl⟩ := formed.declared.schemaAt?_eq_some_iff.1 found
  exact values entry declared field mem

/-- The nodes that read or set a variable of one name have ports of one type. -/
def VariablesAgree (graph : Graph) : Prop :=
  ∀ x ∈ graph.live, ∀ y ∈ graph.live, x.2.form.SameVariable y.2.form

instance (graph : Graph) : Decidable graph.FieldsAreValues :=
  inferInstanceAs (Decidable (∀ entry ∈ graph.structs, ∀ field ∈ entry.schema.fields,
    field.type.isSignal = false))

instance (graph : Graph) : Decidable graph.VariablesAgree :=
  inferInstanceAs (Decidable (∀ x ∈ graph.live, ∀ y ∈ graph.live, x.2.form.SameVariable y.2.form))

/-- The faults that a run may end with: an input without a value, an argument that is read outside
of its function, too many open calls, and the faults that its nodes stop at by themselves. -/
inductive MayStop (graph : Graph) (limit : Nat) : RunError → Prop where
  | missing (node : NodeId) (input : String) : MayStop graph limit (.missingValue node input)
  | outside (boundary : NodeId) : MayStop graph limit (.outsideFunction boundary)
  | tooDeep : MayStop graph limit (.callDepthExceeded limit)
  | node {id : NodeId} {form : Form} {error : RunError} (here : graph.form? id = some form)
      (fails : form.MayFail id error) : MayStop graph limit error

variable {graph : Graph} {limit : Nat}

/-- Each loop has variables of its own. -/
theorem slots_agree (fits : graph.SlotsFit) {id id' : NodeId} {form form' : Form} {slot : Slot}
    {a b : DataType} (here : graph.form? id = some form) (here' : graph.form? id' = some form')
    (uses : form.Uses ((Program.compile graph .builtin).entries.slotsOf id) (.slot slot) a)
    (uses' : form'.Uses ((Program.compile graph .builtin).entries.slotsOf id') (.slot slot) b) :
    a.same b = true := by
  have allotted := Program.allotted graph
  have mem : slot ∈ (Program.compile graph .builtin).entries.slotsOf id := by
    cases uses <;> exact List.mem_of_getElem? ‹_›
  have mem' : slot ∈ (Program.compile graph .builtin).entries.slotsOf id' := by
    cases uses' <;> exact List.mem_of_getElem? ‹_›
  obtain rfl := allotted.apart fits.wanted_le id id' slot mem mem'
  obtain rfl := Option.some.inj (here.symm.trans here')
  have loop : form.kind = .builtin Catalog.forEach.id := by cases uses <;> assumption
  have builtin : (id, Catalog.forEach.id, form.config) ∈ graph.builtins :=
    mem_builtins.2 (builtin?_eq_some here loop)
  obtain ⟨element, index, slots, apart⟩ := allotted.loops id form.config builtin
  rw [slots] at uses uses'
  cases uses with
  | element _ output given =>
    cases uses' with
    | element _ output' given' =>
      rw [Option.some.inj (output.symm.trans output')]
      exact DataType.same_refl _
    | index _ _ given' =>
      exact absurd ((Option.some.inj given).trans (Option.some.inj given').symm) apart
  | index _ output given =>
    cases uses' with
    | element _ _ given' =>
      exact absurd ((Option.some.inj given').trans (Option.some.inj given).symm) apart
    | index _ output' given' =>
      rw [Option.some.inj (output.symm.trans output')]
      exact DataType.same_refl _

def typing (graph : Graph) (limit : Nat) (fits : graph.SlotsFit) (agree : graph.VariablesAgree) :
    Typing where
  var key type := ∃ id form, graph.form? id = some form ∧
    form.Uses ((Program.compile graph .builtin).entries.slotsOf id) key type
  result call slot type := ∃ port, graph.outputPort? ⟨call, slot⟩ = some port ∧ port.type = type
  exit call slot := ∃ port, graph.outputPort? ⟨call, slot⟩ = some port ∧ port.isSignal = true
  fault := graph.MayStop limit
  agree := by
    rintro (slot | name) a b ⟨id, form, here, uses⟩ ⟨id', form', here', uses'⟩
    · exact slots_agree fits here here' uses uses'
    · obtain ⟨node, there, rfl⟩ := node?_of_form? here
      obtain ⟨node', there', rfl⟩ := node?_of_form? here'
      exact agree (id, node) (mem_live.2 there) (id', node') (mem_live.2 there') _ uses.named? _
        uses'.named? rfl

/-- Values are read at an input only if they are of the type of its port. -/
def checked (graph : Graph) (target : InputRef) (read : Run Value) : Run Value := do
  let value ← read
  if (graph.inputPort? target).any (·.type.accepts value) then return value
  else .fail (.typeMismatch target.node "a value of the type of the port" value.kindName)

end Graph

theorem DataType.acceptsFields_of_forall₂ {fields : List Field} {values : List (String × Value)}
    (fit : List.Forall₂ (fun field value => value.1 = field.name ∧
      field.type.accepts value.2 = true) fields values) : acceptsFields fields values = true := by
  induction fit with
  | nil => rfl
  | cons here _ rest =>
    rw [acceptsFields, rest]
    simp [here]

namespace Machine

/-- The parts of a run keep to the types of the ports, whatever calls are open. -/
structure Parts.Typed (graph : Graph) (typing : Typing) (parts : Parts) : Prop where
  fire : ∀ source port stack, graph.outputPort? source = some port → port.isSignal = true →
    Sound typing stack (fun _ => True) (parts.fire source)
  execute : ∀ target port stack, graph.inputPort? target = some port → port.isSignal = true →
    Sound typing stack (fun flow => ∀ slot, flow = .next slot → typing.exit target.node slot)
      (parts.execute target)
  pull : ∀ target port stack, graph.inputPort? target = some port → port.isSignal = false →
    Sound typing stack (fun v => port.type.accepts v = true) (parts.pull target)
  evaluate : ∀ source port stack, graph.outputPort? source = some port → port.isSignal = false →
    Sound typing stack (fun v => port.type.accepts v = true) (parts.evaluate source)

section

variable {graph : Graph} {limit fuel : Nat} {fits : graph.SlotsFit}
  {agree : graph.VariablesAgree} {parts : Parts} {stack : List (Option NodeId)} {typing : Typing}
  {α β : Type}

theorem sound_liftExcept {post : α → Prop} {result : Except Stop α}
    (ok : ∀ a, result = .ok a → post a)
    (stopped : ∀ stop, result = .error stop → typing.Stops stop) :
    Sound typing stack post (liftExcept result) := by
  cases result with
  | ok a => exact .pure (ok a rfl)
  | error stop =>
    intro ctx typed
    exact ⟨typed, stopped stop rfl⟩

theorem sound_step (typing : Typing) (stack : List (Option NodeId)) :
    Sound typing stack (fun _ => True) step := by
  refine Sound.changing fun ctx typed => ?_
  exact typed.change rfl rfl (typed.frames ctx.top List.mem_cons_self)

theorem sound_currentCall (fits : graph.SlotsFit) (agree : graph.VariablesAgree)
    (boundary : NodeId) (f : FunctionId) :
    Sound (graph.typing limit fits agree) stack
      (fun call => graph.HasKind call (.call f) ∧ ∃ rest, stack = some call :: rest)
      ((graph.machine .builtin limit).currentCall boundary f) := by
  intro ctx typed
  obtain ⟨call, opened, calls, done⟩ | ⟨-, stopped⟩ :=
    (graph.machine .builtin limit).currentCall_cases boundary f ctx
  · rw [done]
    refine ⟨typed, calls, ctx.callers.map (·.call), ?_⟩
    rw [← typed.calls, Context.frames, List.map_cons, opened]
  · rw [stopped]
    refine ⟨typed, ?_⟩
    intro error same
    obtain rfl := Stop.fault.inj same
    exact .outside boundary

theorem sound_openCall {post : α → Prop} {post' : β → Prop} {call : NodeId} {run : Run α}
    {next : Except Stop α × Frame → Run β}
    (sound : Sound (graph.typing limit fits agree) (some call :: stack) post run)
    (rest : ∀ result frame, (∀ a, result = .ok a → post a) →
      (∀ stop, result = .error stop → (graph.typing limit fits agree).Stops stop) →
      frame.call = some call → frame.Typed (graph.typing limit fits agree) →
        Sound (graph.typing limit fits agree) stack post' (next (result, frame))) :
    Sound (graph.typing limit fits agree) stack post'
      ((graph.machine .builtin limit).openCall call >>= fun _ => leaving run >>= next) := by
  rw [openCall_bind]
  refine Sound.looking.bind fun ctx _ => ?_
  split
  · exact .fail .tooDeep
  · exact .leaving sound rest

variable (typed : parts.Typed graph (graph.typing limit fits agree))
  (formed : graph.WellFormed Registry.builtin.Declares)
include typed formed

theorem sound_fireWith {source : OutputRef} {port : Port}
    (found : graph.outputPort? source = some port) (signal : port.isSignal = true) :
    Sound (graph.typing limit fits agree) stack (fun _ => True)
      ((graph.machine .builtin limit).fireWith parts source) := by
  rw [fireWith_eq]
  cases leads : (graph.machine .builtin limit).graph.signalTarget? source with
  | none => exact .pure trivial
  | some target =>
    obtain ⟨port', found', same⟩ := formed.wired.target_port found leads
    refine (typed.execute target port' stack found' (same.trans signal)).bind fun flow exits => ?_
    cases flow with
    | done => exact .pure trivial
    | next slot =>
      obtain ⟨port, found, signal⟩ := exits slot rfl
      exact typed.fire ⟨target.node, slot⟩ port stack found signal

theorem sound_call {target : InputRef} {f : FunctionId} {port : Port}
    (calls : graph.HasKind target.node (.call f)) (found : graph.inputPort? target = some port)
    (signal : port.isSignal = true) :
    Sound (graph.typing limit fits agree) stack
      (fun flow => ∀ slot, flow = .next slot →
        (graph.typing limit fits agree).exit target.node slot)
      ((graph.machine .builtin limit).call parts target f) := by
  obtain ⟨entry, exit, nodes, begins, -⟩ := formed.boundaryNodes .builtin limit calls
  have body : Sound (graph.typing limit fits agree) (some target.node :: stack) (fun _ => True)
      (parts.fire ⟨entry, target.slot⟩) :=
    typed.fire _ port _ ((formed.argument_ports calls begins target.slot).trans found) signal
  rw [call_eq, nodes, pure_bind]
  refine sound_openCall body fun result frame _ stopped opened top => ?_
  refine (sound_liftExcept (fun _ _ => trivial) stopped).bind fun _ _ => ?_
  dsimp only
  cases returned : frame.returned with
  | none => exact .pure fun _ same => by simp at same
  | some exit =>
    refine (Sound.changing fun ctx typed => ?_).bind fun _ _ => .pure fun slot same => ?_
    · have here := typed.frames ctx.top List.mem_cons_self
      refine typed.change rfl rfl { here with callResults := fun {call results} found => ?_ }
      by_cases same : call = target.node
      · subst same
        rw [Assoc.lookup_put_self] at found
        obtain rfl := Option.some.inj found
        exact top.results opened
      · rw [Assoc.lookup_put_of_ne same] at found
        exact here.callResults found
    · obtain rfl := Flow.next.inj same
      exact top.returned opened returned

/-- The end of a body leaves behind values of the types of the outputs of its call. -/
theorem sound_collect {target : InputRef} {f : FunctionId} {node : Node} {port : Port}
    (here : graph.node? target.node = some node) (kind : node.kind = .functionOutput f)
    (found : graph.inputPort? target = some port) (signal : port.isSignal = true) :
    Sound (graph.typing limit fits agree) stack
      (fun flow => ∀ slot, flow = .next slot →
        (graph.typing limit fits agree).exit target.node slot)
      ((graph.machine .builtin limit).collect parts target node f) := by
  have ends : graph.HasKind target.node (.functionOutput f) :=
    Graph.hasKind_iff.2 ⟨node, here, kind⟩
  refine (sound_currentCall fits agree target.node f).bind fun call called => ?_
  obtain ⟨calls, rest, rfl⟩ := called
  have each : ∀ item ∈ node.inputs.zipIdx,
      Sound (graph.typing limit fits agree) (some call :: rest)
        (fun v? => ∀ v, v? = some v → item.1.port.type.accepts v = true)
        (if item.1.port.isSignal then pure none
          else (parts.pull ⟨target.node, item.2⟩).orMissing) := by
    intro item mem
    have input : graph.input? ⟨target.node, item.2⟩ = some item.1 :=
      Option.bind_eq_some_iff.2 ⟨node, here, List.mem_zipIdx_iff_getElem?.1 mem⟩
    split
    · exact .pure fun _ same => by simp at same
    · rename_i value
      refine (typed.pull _ item.1.port _ ?_ (Bool.eq_false_iff.2 value)).orMissing
      rw [Graph.inputPort?_eq, input]
      rfl
  refine (Sound.mapM each).bind fun results fit => ?_
  refine (Sound.changing fun ctx typed => ?_).bind fun _ _ => .pure fun _ same => by simp at same
  have top := typed.frames ctx.top List.mem_cons_self
  have opened : ctx.top.call = some call := (List.cons.inj typed.calls).1
  refine typed.change rfl rfl { top with results := ?_, returned := ?_ }
  · intro call' opened' slot v type got used
    obtain rfl := Option.some.inj (opened.symm.trans opened')
    obtain ⟨port, output, rfl⟩ := used
    rw [← formed.result_ports calls ends slot, Graph.inputPort?_eq,
      Option.map_eq_some_iff] at output
    obtain ⟨input, there, rfl⟩ := output
    have place : node.inputs.zipIdx[slot]? = some (input, slot) := by
      obtain ⟨node', here', at'⟩ := Option.bind_eq_some_iff.1 there
      obtain rfl := Option.some.inj (here.symm.trans here')
      rw [List.getElem?_zipIdx, at', Nat.zero_add]
      rfl
    obtain ⟨inside, item⟩ := List.getElem?_eq_some_iff.1 place
    obtain ⟨inside', result⟩ := List.getElem?_eq_some_iff.1 got
    have fits := fit.get inside inside'
    rw [List.get_eq_getElem, List.get_eq_getElem, item, result] at fits
    exact fits v rfl
  · intro call' exit opened' returned
    obtain rfl := Option.some.inj (opened.symm.trans opened')
    obtain rfl := Option.some.inj returned
    exact ⟨port, (formed.result_ports calls ends target.slot).symm.trans found, signal⟩

omit formed in
theorem scope_typed {id : NodeId} {form : Form} (here : graph.form? id = some form) :
    ((graph.machine .builtin limit).scope fuel parts id form.config).Typed
      (graph.typing limit fits agree) stack form where
  config := rfl
  input slot port found value := by
    refine typed.pull ⟨id, slot⟩ port stack ?_ value
    rw [Graph.inputPort?, here]
    exact found
  fire slot port found signal := by
    refine typed.fire ⟨id, slot⟩ port stack ?_ signal
    rw [Graph.outputPort?, here]
    exact found
  slots loop := by
    have builtin : (id, Catalog.forEach.id, form.config) ∈ graph.builtins :=
      Graph.mem_builtins.2 (Graph.builtin?_eq_some here loop)
    obtain ⟨element, index, slots, -⟩ := (Program.allotted graph).loops id form.config builtin
    exact ⟨element, index, slots⟩
  uses used := ⟨id, form, here, used⟩
  fails fails := .node here fails

omit typed in
theorem behavior_typed (limit : Nat) {id : NodeId} {form : Form} {type : String}
    (here : graph.form? id = some form) (kind : form.kind = .builtin type) :
    ∃ behavior known, (graph.machine .builtin limit).behavior id = pure behavior ∧
      behavior.Typed type ∧ behavior.ports form.config known = .ok form.ports := by
  obtain ⟨behavior, known, registered, declared⟩ := formed.admitted here kind
  have builtin := Graph.builtin?_eq_some here kind
  exact ⟨behavior, known, Graph.behavior_machine builtin registered limit,
    Registry.builtin_typed type behavior registered, declared⟩

theorem sound_executeWith (values : graph.FieldsAreValues) {target : InputRef} {port : Port}
    (found : graph.inputPort? target = some port) (signal : port.isSignal = true) :
    Sound (graph.typing limit fits agree) stack
      (fun flow => ∀ slot, flow = .next slot →
        (graph.typing limit fits agree).exit target.node slot)
      ((graph.machine .builtin limit).executeWith fuel parts target) := by
  obtain ⟨form, here, declared⟩ := Option.bind_eq_some_iff.1 found
  obtain ⟨node, there, rfl⟩ := Graph.node?_of_form? here
  unfold executeWith
  rw [show (graph.machine .builtin limit).graph.node? target.node = some node from there]
  refine (sound_step _ _).bind fun _ _ => ?_
  have fits := formed.fit here
  cases kind : node.kind with
  | builtin type =>
    obtain ⟨behavior, known, runs, keeps, ports⟩ := behavior_typed formed limit here kind
    have same : node.form = ⟨.builtin type, node.config, node.ports⟩ := by rw [Node.form, kind]
    rw [same] at here
    dsimp only
    rw [runs, pure_bind]
    refine (keeps.execute ports (scope_typed typed here) _ port declared signal).mono ?_
    intro flow leads slot goes
    obtain ⟨port, out, signal⟩ := leads slot goes
    exact ⟨port, by rw [Graph.outputPort?, here]; exact out, signal⟩
  | call f => exact sound_call typed formed (Graph.hasKind_iff.2 ⟨node, there, kind⟩) found signal
  | functionOutput f => exact sound_collect typed formed there kind found signal
  | functionInput f =>
    obtain ⟨signature, -, inputs, -⟩ :=
      formed.function_ports (Graph.hasKind_iff.2 ⟨node, there, kind⟩) rfl
    simp [inputs target.slot, NodeKind.portsOf, Signature.inputPorts] at found
  | construct s =>
    obtain ⟨schema, known, inputs, -⟩ :=
      formed.construct_ports (Graph.hasKind_iff.2 ⟨node, there, kind⟩)
    obtain ⟨field, mem, rfl⟩ := List.mem_map.1 (List.mem_of_getElem? ((inputs _).symm.trans found))
    simp [Port.ofField, Port.isSignal, formed.field_isSignal values known mem] at signal

omit typed in
theorem default_fits {target : InputRef} {input : Input} {v : Value}
    (found : graph.input? target = some input) (default : input.port.default = some v) :
    input.port.type.accepts v = true := by
  obtain ⟨form, here, declared⟩ := Graph.form?_of_input? found
  have port : graph.inputPort? target = some input.port :=
    Option.bind_eq_some_iff.2 ⟨form, here, declared⟩
  have bare (fields : List Field) : (fields.map Port.ofField)[target.slot]? ≠ some input.port := by
    intro given
    obtain ⟨field, -, same⟩ := List.mem_map.1 (List.mem_of_getElem? given)
    rw [← same] at default
    simp [Port.ofField] at default
  cases kind : form.kind with
  | builtin type =>
    obtain ⟨behavior, known, -, keeps, ports⟩ := behavior_typed formed 0 here kind
    exact keeps.defaults ports input.port (List.mem_of_getElem? declared) v default
  | construct s =>
    obtain ⟨schema, -, inputs, -⟩ := formed.construct_ports ⟨form, here, kind⟩
    exact absurd ((inputs target.slot).symm.trans port) (bare schema.fields)
  | call f =>
    obtain ⟨signature, -, inputs, -⟩ := formed.function_ports ⟨form, here, kind⟩ rfl
    exact absurd ((inputs target.slot).symm.trans port) (bare signature.inputs)
  | functionInput f =>
    obtain ⟨signature, -, inputs, -⟩ := formed.function_ports ⟨form, here, kind⟩ rfl
    exact absurd ((inputs target.slot).symm.trans port) (bare [])
  | functionOutput f =>
    obtain ⟨signature, -, inputs, -⟩ := formed.function_ports ⟨form, here, kind⟩ rfl
    exact absurd ((inputs target.slot).symm.trans port) (bare signature.outputs)

theorem sound_pullWith {target : InputRef} {port : Port}
    (found : graph.inputPort? target = some port) (value : port.isSignal = false) :
    Sound (graph.typing limit fits agree) stack (fun v => port.type.accepts v = true)
      ((graph.machine .builtin limit).pullWith parts target) := by
  rw [Graph.inputPort?_eq, Option.map_eq_some_iff] at found
  obtain ⟨input, here, rfl⟩ := found
  rw [pullWith_eq, show (graph.machine .builtin limit).graph.input? target = some input from here]
  dsimp only
  cases origin : input.source? with
  | some source =>
    obtain ⟨wire, first, rfl⟩ := Option.map_eq_some_iff.1 origin
    obtain ⟨port, out, same⟩ := formed.wired.source_port here (List.mem_of_head? first)
    refine (typed.evaluate wire.source port stack out ?_).mono fun v accepted => ?_
    · exact (DataType.isSignal_of_same same).trans value
    · rw [← DataType.accepts_of_same v same]
      exact accepted
  | none =>
    dsimp only
    cases literal : input.literal? with
    | none => exact .fail (.missing _ _)
    | some v =>
      refine .pure ?_
      rcases Option.or_eq_some_iff.1 literal with inset | ⟨-, default⟩
      · exact formed.insets target input v here inset
      · exact default_fits formed here default

theorem sound_callOutput {source : OutputRef} {f : FunctionId} {port : Port}
    (calls : graph.HasKind source.node (.call f)) (found : graph.outputPort? source = some port)
    (value : port.isSignal = false) :
    Sound (graph.typing limit fits agree) stack (fun v => port.type.accepts v = true)
      ((graph.machine .builtin limit).callOutput parts source f) := by
  unfold callOutput
  refine Sound.looking.bind fun ctx typed' => ?_
  split
  · rename_i v left
    obtain ⟨results, kept, result⟩ := Option.bind_eq_some_iff.1 left
    have top := typed'.frames ctx.top List.mem_cons_self
    refine .pure (top.callResults kept ?_ ⟨port, found, rfl⟩)
    exact Option.join_eq_some_iff.1 result
  · obtain ⟨entry, exit, nodes, -, ends⟩ := formed.boundaryNodes .builtin limit calls
    have body : Sound (graph.typing limit fits agree) (some source.node :: stack)
        (fun v => port.type.accepts v = true) (parts.pull ⟨exit, source.slot⟩) :=
      typed.pull _ port _ ((formed.result_ports calls ends source.slot).trans found) value
    rw [nodes]
    exact sound_openCall body fun result frame ok stopped _ _ => sound_liftExcept ok stopped

theorem sound_argument {source : OutputRef} {f : FunctionId} {port : Port}
    (begins : graph.HasKind source.node (.functionInput f))
    (found : graph.outputPort? source = some port) (value : port.isSignal = false) :
    Sound (graph.typing limit fits agree) stack (fun v => port.type.accepts v = true)
      ((graph.machine .builtin limit).currentCall source.node f >>= fun call =>
        inCaller (parts.pull ⟨call, source.slot⟩)) := by
  refine (sound_currentCall fits agree source.node f).bind fun call called => ?_
  obtain ⟨calls, rest, rfl⟩ := called
  refine Sound.inCaller (typed.pull _ port rest ?_ value)
  exact (formed.argument_ports calls begins source.slot).symm.trans found

theorem sound_construct (values : graph.FieldsAreValues) {source : OutputRef} {s : StructId}
    {port : Port} (makes : graph.HasKind source.node (.construct s))
    (found : graph.outputPort? source = some port) :
    Sound (graph.typing limit fits agree) stack (fun v => port.type.accepts v = true)
      ((graph.machine .builtin limit).construct parts source s) := by
  obtain ⟨schema, known, inputs, outputs⟩ := formed.construct_ports makes
  rw [construct_eq, show (graph.machine .builtin limit).graph.schemaAt? s = some schema from known]
  have same : port.type = schema.type := by
    have only := (outputs source.slot).symm.trans found
    cases slot : source.slot with
    | zero =>
      rw [slot] at only
      rw [← Option.some.inj only]
    | succ n => simp [Schema.ports, slot] at only
  have each : ∀ item ∈ schema.fields.zipIdx, Sound (graph.typing limit fits agree) stack
      (fun pair => pair.1 = item.1.name ∧ item.1.type.accepts pair.2 = true)
      (parts.pull ⟨source.node, item.2⟩ >>= fun v => pure (item.1.name, v)) := by
    intro item mem
    have place := List.mem_zipIdx_iff_getElem?.1 mem
    have input : graph.inputPort? ⟨source.node, item.2⟩ = some (.ofField item.1) := by
      rw [inputs, Schema.ports, List.getElem?_map, place]
      rfl
    have field := formed.field_isSignal values known (List.mem_of_getElem? place)
    exact (typed.pull _ _ stack input field).bind fun v accepted => .pure ⟨rfl, accepted⟩
  refine (Sound.mapM each).bind fun fields fit => .pure ?_
  rw [same]
  refine DataType.acceptsFields_of_forall₂ ?_
  rw [← List.zipIdx_map_fst 0 schema.fields, List.forall₂_map_left_iff]
  exact fit

theorem sound_evaluateWith (values : graph.FieldsAreValues) {source : OutputRef} {port : Port}
    (found : graph.outputPort? source = some port) (value : port.isSignal = false) :
    Sound (graph.typing limit fits agree) stack (fun v => port.type.accepts v = true)
      ((graph.machine .builtin limit).evaluateWith fuel parts source) := by
  obtain ⟨form, here, declared⟩ := Option.bind_eq_some_iff.1 found
  obtain ⟨node, there, rfl⟩ := Graph.node?_of_form? here
  rw [evaluateWith_eq,
    show (graph.machine .builtin limit).graph.node? source.node = some node from there]
  dsimp only
  have output : ∃ output, node.outputs[source.slot]? = some output ∧ output.port = port := by
    rw [Node.form, Node.ports, List.getElem?_map, Option.map_eq_some_iff] at declared
    exact declared
  obtain ⟨output, out, rfl⟩ := output
  rw [if_neg (by simp [out, value])]
  refine (sound_step _ _).bind fun _ _ => ?_
  have has {kind : NodeKind} (same : node.kind = kind) : graph.HasKind source.node kind :=
    Graph.hasKind_iff.2 ⟨node, there, same⟩
  cases kind : node.kind with
  | builtin type =>
    obtain ⟨behavior, known, runs, keeps, ports⟩ := behavior_typed formed limit here kind
    have same : node.form = ⟨.builtin type, node.config, node.ports⟩ := by rw [Node.form, kind]
    rw [same] at here
    dsimp only
    rw [runs, pure_bind]
    exact keeps.evaluate ports (scope_typed typed here) _ output.port declared value
  | call f => exact sound_callOutput typed formed (has kind) found value
  | functionInput f => exact sound_argument typed formed (has kind) found value
  | construct s => exact sound_construct typed formed values (has kind) found
  | functionOutput f =>
    obtain ⟨signature, -, -, outputs⟩ := formed.function_ports (has kind) rfl
    simp [outputs source.slot, NodeKind.portsOf, Signature.outputPorts] at found

omit typed in
theorem checked_typed (values : graph.FieldsAreValues) (fits : graph.SlotsFit)
    (agree : graph.VariablesAgree) (limit fuel : Nat) :
    ((graph.machine .builtin limit).watched graph.checked fuel).Typed graph
      (graph.typing limit fits agree) := by
  induction fuel with
  | zero =>
    exact ⟨fun _ _ _ _ _ => .outOfFuel, fun _ _ _ _ _ => .outOfFuel, fun _ _ _ _ _ => .outOfFuel,
      fun _ _ _ _ _ => .outOfFuel⟩
  | succ fuel ih =>
    refine ⟨fun _ _ _ found signal => sound_fireWith ih formed found signal,
      fun _ _ _ found signal => sound_executeWith ih formed values found signal,
      fun target port stack found value => ?_,
      fun _ _ _ found value => sound_evaluateWith ih formed values found value⟩
    refine (sound_pullWith ih formed found value).bind fun v accepted => ?_
    rw [if_pos (by simp [found, accepted])]
    exact .pure accepted

end

end Machine

def Stop.Mistyped (stop : Stop) : Prop :=
  ∃ node expected found, stop = .fault (.typeMismatch node expected found)

theorem Graph.MayStop.typed {graph : Graph} {limit : Nat} {node : NodeId}
    {expected found : String} :
    ¬graph.MayStop limit (.typeMismatch node expected found) := by
  intro stops
  cases stops with
  | node _ fails => cases fails

theorem Run.Follows.checked {read read' : Run Value}
    (follows : Run.Follows Stop.Mistyped read read')
    (graph : Graph) (target : InputRef) :
    Run.Follows Stop.Mistyped (graph.checked target read) read' := by
  intro ctx
  unfold Graph.checked
  rw [runAt_bind]
  rcases follows ctx with ⟨stop, ctx', stopped, reason⟩ | same
  · rw [stopped]
    exact .inl ⟨stop, ctx', rfl, reason⟩
  · rw [← same]
    rcases read.runAt ctx with ⟨result, ctx'⟩
    cases result with
    | error stop => exact .inr rfl
    | ok value =>
      dsimp only
      split
      · exact .inr rfl
      · exact .inl ⟨_, ctx', rfl, _, _, _, rfl⟩

theorem Graph.WellFormed.root_port {graph : Graph}
    (formed : graph.WellFormed Registry.builtin.Declares) {entry : EntryPoint} {root : OutputRef}
    (begins : (Program.compile graph .builtin).entries.root? entry = some root) :
    graph.outputPort? root = some (.signal "then") := by
  obtain ⟨first, form, here, kind⟩ := Graph.hasKind_root begins
  obtain ⟨behavior, known, registered, declared⟩ := formed.admitted here kind
  have event : Registry.builtin.behavior? Catalog.onEvent.id = some Catalog.onEvent.behavior := rfl
  obtain rfl := Option.some.inj (event.symm.trans registered)
  rw [Graph.outputPort?, here, Option.bind_some, first, ← Except.ok.inj declared]
  rfl

/-- In a script in which no field of a struct is a signal, no two loops share a slot and each
variable is used with one type, a run from any entry reads at its inputs only values of the types of
their ports: no check of this would stop it. If it ends with a fault, that is one that its nodes may
stop at by themselves, or lies in a missing value, in an argument that is read outside of its
function, or in too many open calls. -/
theorem Graph.IsScript.emit_typed {graph : Graph} (script : graph.IsScript .builtin)
    (values : graph.FieldsAreValues) (fits : graph.SlotsFit) (agree : graph.VariablesAgree)
    (maxCallDepth fuel : Nat) {entry : EntryPoint} {root : OutputRef}
    (begins : (Program.compile graph .builtin).entries.root? entry = some root)
    (trigger : Trigger) (draws : Draws) :
    let machine := graph.machine .builtin maxCallDepth
    let start : Context := .ofTrigger trigger draws
    (machine.emitWatched graph.checked fuel entry).runAt start =
        (machine.emit fuel entry).runAt start ∧
      ∀ error, ((machine.emit fuel entry).runAt start).1 = .error (.fault error) →
        graph.MayStop maxCallDepth error := by
  intro machine start
  have formed := script.wellFormed
  have typed := (Machine.checked_typed formed values fits agree maxCallDepth fuel).fire
    root _ [none]
    (formed.root_port begins) rfl
  have checked : machine.emitWatched graph.checked fuel entry =
      (machine.watched graph.checked fuel).fire root := by
    unfold Machine.emitWatched
    rw [show machine.program.entries.root? entry = some root from begins]
  rw [← checked] at typed
  obtain ⟨-, -, stops⟩ := typed.ends (Context.typed_start _ trigger draws) rfl
  have follows : Run.Follows Stop.Mistyped (machine.emitWatched graph.checked fuel entry)
      (machine.emit fuel entry) :=
    Machine.emitWatched_follows_emit machine (fun node input => by simp [Stop.Mistyped])
      (fun id behavior found => Graph.parametric_of_machine Registry.builtin_parametric found)
      (fun target _ _ follows => follows.checked graph target) fuel entry
  have same : (machine.emitWatched graph.checked fuel entry).runAt start =
      (machine.emit fuel entry).runAt start := by
    refine (follows start).resolve_left ?_
    rintro ⟨stop, ctx, stopped, node, expected, found, rfl⟩
    exact Graph.MayStop.typed (stops _ (congrArg Prod.fst stopped) _ rfl)
  refine ⟨same, fun error stopped => ?_⟩
  rw [← same] at stopped
  exact stops _ stopped error rfl

def Edit.inverting : List Edit := [
  .addBuiltin "event/On" (.obj [("event", .str "go")]) .zero,
  .addBuiltin "flow/ForEach" .null .zero,
  .addBuiltin "math/Divide" .null .zero,
  .addBuiltin "var/Set" .null .zero,
  .setInset ⟨⟨1⟩, 1⟩ (some (.list [.number 1, .number 0])),
  .setInset ⟨⟨2⟩, 0⟩ (some (.number 1)),
  .connect ⟨⟨0⟩, 0⟩ ⟨⟨1⟩, 0⟩ [],
  .connect ⟨⟨1⟩, 0⟩ ⟨⟨3⟩, 0⟩ [],
  .connect ⟨⟨1⟩, 1⟩ ⟨⟨2⟩, 1⟩ [],
  .connect ⟨⟨2⟩, 0⟩ ⟨⟨3⟩, 1⟩ []]

theorem inverting_typed : ∃ graph,
    Edit.inverting.foldlM (Edit.apply Registry.builtin) .empty = .ok graph ∧
      graph.IsScript .builtin ∧ graph.FieldsAreValues ∧ graph.SlotsFit ∧ graph.VariablesAgree ∧
      (Program.compile graph .builtin).entries.root? ⟨0⟩ = some ⟨⟨0⟩, 0⟩ ∧
      (((graph.machine .builtin 8).emit 9 ⟨0⟩).runAt { trigger := { event := "go" } }).1 =
        .error (.fault (.nodeFault ⟨2⟩ "division by zero")) ∧
      ((graph.machine .builtin 8).emitWatched graph.checked 9 ⟨0⟩).runAt
          { trigger := { event := "go" } } =
        ((graph.machine .builtin 8).emit 9 ⟨0⟩).runAt { trigger := { event := "go" } } ∧
      graph.MayStop 8 (.nodeFault ⟨2⟩ "division by zero") := by
  have facts : ∃ graph ∈ (Edit.inverting.foldlM (Edit.apply Registry.builtin) .empty).toOption,
      graph.FieldsAreValues ∧ graph.SlotsFit ∧ graph.VariablesAgree ∧
        (Program.compile graph .builtin).entries.root? ⟨0⟩ = some ⟨⟨0⟩, 0⟩ ∧
        (((graph.machine .builtin 8).emit 9 ⟨0⟩).runAt { trigger := { event := "go" } }).1 =
          .error (.fault (.nodeFault ⟨2⟩ "division by zero")) := by decide +kernel
  obtain ⟨graph, built, values, fits, agree, begins, stopped⟩ := facts
  have built := Accepted.toOption_eq_some_iff.1 built
  have script : graph.IsScript .builtin :=
    Reached.foldlM rfl (.first (.inl rfl)) (fun _ _ _ => trivial) built
  obtain ⟨same, stops⟩ := script.emit_typed values fits agree 8 9 begins { event := "go" } default
  exact ⟨graph, built, script, values, fits, agree, begins, stopped, same, stops _ stopped⟩

end NodeScript
