import NodeScript.Proofs.Graph.Restrict

/-!
The part of a node that stays while its wires and literals are edited: kind, configuration and
declared ports. Main statements: the equations for `Graph.form?` after each operation, and literals
keep fitting their inputs.
-/

set_option autoImplicit false
set_option relaxedAutoImplicit false

namespace NodeScript

/-- A node without its place on the canvas, its wires and its literals. -/
structure Form where
  kind : NodeKind
  config : Json
  ports : Ports

def Node.form (node : Node) : Form := ⟨node.kind, node.config, node.ports⟩

@[simp] theorem Node.form_ofPorts (kind : NodeKind) (config : Json) (ports : Ports)
    (position : Position) :
    (Node.ofPorts kind config ports position).form = ⟨kind, config, ports⟩ := by
  rw [Node.form, Node.ports_ofPorts]
  rfl

@[simp] theorem Node.form_restrictEnds (inner outer : Keep) (id : NodeId) (node : Node) :
    (node.restrictEnds inner outer id).form = node.form := by
  rw [Node.form, Node.ports_restrictEnds]
  rfl

namespace Graph

/-- The form of the node at an address. -/
def form? (graph : Graph) (id : NodeId) : Option Form := (graph.node? id).map Node.form

/-- There is a node of a kind at an address. -/
def HasKind (graph : Graph) (id : NodeId) (kind : NodeKind) : Prop :=
  ∃ form, graph.form? id = some form ∧ form.kind = kind

/-- Every literal is one that the type of its input accepts. -/
def InsetsFit (graph : Graph) : Prop :=
  ∀ (ref : InputRef) (input : Input) (value : Value), graph.input? ref = some input →
    input.inset = some value → input.port.type.accepts value = true

variable {graph : Graph}

theorem form?_eq_of_node? {id : NodeId} {node : Node} (h : graph.node? id = some node) :
    graph.form? id = some node.form := by
  rw [form?, h]
  rfl

theorem node?_of_form? {id : NodeId} {form : Form} (h : graph.form? id = some form) :
    ∃ node, graph.node? id = some node ∧ node.form = form :=
  Option.map_eq_some_iff.1 h

theorem hasKind_iff {id : NodeId} {kind : NodeKind} :
    graph.HasKind id kind ↔ ∃ node, graph.node? id = some node ∧ node.kind = kind := by
  constructor
  · rintro ⟨form, hf, hk⟩
    obtain ⟨node, hn, rfl⟩ := node?_of_form? hf
    exact ⟨node, hn, hk⟩
  · rintro ⟨node, hn, hk⟩
    exact ⟨node.form, form?_eq_of_node? hn, hk⟩

theorem form?_of_input? {ref : InputRef} {input : Input} (h : graph.input? ref = some input) :
    ∃ form, graph.form? ref.node = some form ∧ form.ports.inputs[ref.slot]? = some input.port := by
  obtain ⟨node, hn, hi⟩ := Option.bind_eq_some_iff.1 h
  refine ⟨node.form, form?_eq_of_node? hn, ?_⟩
  simp [Node.form, Node.ports, hi]

/-- The declared port of an input. -/
def inputPort? (graph : Graph) (ref : InputRef) : Option Port :=
  (graph.form? ref.node).bind (·.ports.inputs[ref.slot]?)

/-- The declared port of an output. -/
def outputPort? (graph : Graph) (ref : OutputRef) : Option Port :=
  (graph.form? ref.node).bind (·.ports.outputs[ref.slot]?)

theorem inputPort?_eq (graph : Graph) (ref : InputRef) :
    graph.inputPort? ref = (graph.input? ref).map (·.port) := by
  rw [inputPort?, form?, input?]
  cases graph.node? ref.node <;> simp [Node.form, Node.ports]

theorem outputPort?_eq (graph : Graph) (ref : OutputRef) :
    graph.outputPort? ref = (graph.output? ref).map (·.port) := by
  rw [outputPort?, form?, output?]
  cases graph.node? ref.node <;> simp [Node.form, Node.ports]

theorem form?_modifyNode {change : Node → Node} (same : ∀ node, (change node).form = node.form)
    (graph : Graph) (id other : NodeId) :
    (graph.modifyNode id change).form? other = graph.form? other := by
  rw [form?, node?_modifyNode]
  split
  · subst other
    rw [Option.map_map, form?]
    exact congrFun (congrArg Option.map (funext same)) _
  · rfl

theorem map_modify {α β : Type} {view : α → β} {change : α → α}
    (same : ∀ a, view (change a) = view a) (items : List α) (slot : Nat) :
    (items.modify slot change).map view = items.map view := by
  apply List.ext_getElem?
  intro i
  simp only [List.getElem?_map, List.getElem?_modify]
  cases items[i]? with
  | none => simp
  | some a => by_cases h : slot = i <;> simp [h, same]

theorem form?_modifyInput {change : Input → Input}
    (same : ∀ input, (change input).port = input.port) (graph : Graph) (ref : InputRef)
    (id : NodeId) : (graph.modifyInput ref change).form? id = graph.form? id := by
  exact form?_modifyNode (fun node => by simp [Node.form, Node.ports, map_modify same]) ..

theorem form?_modifyOutput {change : Output → Output}
    (same : ∀ output, (change output).port = output.port) (graph : Graph) (ref : OutputRef)
    (id : NodeId) : (graph.modifyOutput ref change).form? id = graph.form? id := by
  exact form?_modifyNode (fun node => by simp [Node.form, Node.ports, map_modify same]) ..

@[simp] theorem form?_restrict (graph : Graph) (keep : Keep) (id : NodeId) :
    (graph.restrict keep).form? id = graph.form? id := by
  rw [form?, restrict, node?_restrictEnds, Option.map_map, form?]
  exact congrFun (congrArg Option.map (funext fun node => Node.form_restrictEnds ..)) _

@[simp] theorem form?_join (graph : Graph) (source : OutputRef) (target : InputRef)
    (relays : List Position) (id : NodeId) :
    (graph.join source target relays).form? id = graph.form? id := by
  rw [join, form?_modifyOutput, form?_modifyInput] <;> intro <;> rfl

@[simp] theorem form?_link (graph : Graph) (source : OutputRef) (target : InputRef)
    (relays : List Position) (others : List (OutputRef × InputRef)) (id : NodeId) :
    (graph.link source target relays others).form? id = graph.form? id := by
  rw [link_eq_join, form?_join, form?_restrict]

@[simp] theorem form?_clear (graph : Graph) (id other : NodeId) :
    (graph.clear id).form? other = if other = id then none else graph.form? other := by
  rw [form?, node?_clear]
  split <;> rfl

theorem form?_push (graph : Graph) (node : Node) (id : NodeId) :
    (graph.push node).2.form? id =
      if id = ⟨graph.arena.size⟩ then some node.form else graph.form? id := by
  rw [form?, node?_push]
  split <;> rfl

theorem form?_fresh (graph : Graph) : graph.form? ⟨graph.arena.size⟩ = none := by
  have outside : graph.node? ⟨graph.arena.size⟩ = none := node?_eq_none_of_size_le (Nat.le_refl _)
  rw [form?, outside]
  rfl

theorem insetsFit_empty : empty.InsetsFit := by
  intro ref input value hi
  simp [input?, empty, node?] at hi

theorem InsetsFit.of_inputs {next : Graph} (fit : graph.InsetsFit)
    (inputs : ∀ ref input, next.input? ref = some input → ∀ value, input.inset = some value →
      (∃ old, graph.input? ref = some old ∧ old.port = input.port ∧ old.inset = input.inset) ∨
      input.port.type.accepts value = true) : next.InsetsFit := by
  intro ref input value hi hv
  rcases inputs ref input hi value hv with ⟨old, hold, hport, hinset⟩ | accepted
  · rw [← hport]
    exact fit ref old value hold (hinset.trans hv)
  · exact accepted

theorem InsetsFit.restrict (fit : graph.InsetsFit) (keep : Keep) :
    (graph.restrict keep).InsetsFit := by
  refine fit.of_inputs fun ref input hi _ _ => .inl ?_
  rw [Graph.restrict, input?_restrictEnds, Option.map_eq_some_iff] at hi
  obtain ⟨old, hold, rfl⟩ := hi
  exact ⟨old, hold, rfl, rfl⟩

theorem InsetsFit.join (fit : graph.InsetsFit) (source : OutputRef) (target : InputRef)
    (relays : List Position) : (graph.join source target relays).InsetsFit := by
  refine fit.of_inputs fun ref input hi _ _ => .inl ?_
  rw [Graph.join, input?_modifyOutput, input?_modifyInput] at hi
  split at hi
  · subst ref
    obtain ⟨old, hold, rfl⟩ := Option.map_eq_some_iff.1 hi
    exact ⟨old, hold, rfl, rfl⟩
  · exact ⟨input, hi, rfl, rfl⟩

theorem InsetsFit.link (fit : graph.InsetsFit) (source : OutputRef) (target : InputRef)
    (relays : List Position) (others : List (OutputRef × InputRef)) :
    (graph.link source target relays others).InsetsFit := by
  rw [link_eq_join]
  exact (fit.restrict _).join source target relays

theorem InsetsFit.clear (fit : graph.InsetsFit) (id : NodeId) : (graph.clear id).InsetsFit := by
  refine fit.of_inputs fun ref input hi _ _ => .inl ?_
  rw [input?_clear] at hi
  split at hi
  · simp at hi
  · exact ⟨input, hi, rfl, rfl⟩

theorem InsetsFit.push (fit : graph.InsetsFit) {node : Node}
    (none : ∀ input ∈ node.inputs, input.inset = none) : (graph.push node).2.InsetsFit := by
  refine fit.of_inputs fun ref input hi value hv => .inl ?_
  rw [input?, node?_push] at hi
  split at hi
  · rw [none input (List.mem_of_getElem? hi)] at hv
    simp at hv
  · exact ⟨input, hi, rfl, rfl⟩

theorem InsetsFit.modifyInput (fit : graph.InsetsFit) (ref : InputRef) {change : Input → Input}
    (same : ∀ input, (change input).port = input.port)
    (accepted : ∀ input value, graph.input? ref = some input → (change input).inset = some value →
      input.port.type.accepts value = true) : (graph.modifyInput ref change).InsetsFit := by
  intro other input value hi hv
  rw [input?_modifyInput] at hi
  split at hi
  · subst other
    obtain ⟨old, hold, rfl⟩ := Option.map_eq_some_iff.1 hi
    rw [same]
    exact accepted old value hold hv
  · exact fit other input value hi hv

end Graph

/-- A node without its wires. -/
def Node.bare (node : Node) : Node :=
  { node with
    inputs := node.inputs.map fun input => { input with wires := [] }
    outputs := node.outputs.map fun output => { output with targets := [] } }

@[simp] theorem Node.form_bare (node : Node) : node.bare.form = node.form := by
  simp [Node.form, Node.ports, Node.bare, Function.comp_def]

@[simp] theorem Node.bare_restrictEnds (inner outer : Keep) (id : NodeId) (node : Node) :
    (node.restrictEnds inner outer id).bare = node.bare := by
  simp only [Node.bare, Node.restrictEnds, Node.mk.injEq, true_and]
  constructor <;> (apply List.ext_getElem?; intro i; simp [Function.comp_def]; rfl)

namespace Graph

/-- The node at an address, without its wires. -/
def bare? (graph : Graph) (id : NodeId) : Option Node := (graph.node? id).map Node.bare

variable {graph next : Graph}

theorem bare_input? (graph : Graph) (ref : InputRef) :
    (graph.input? ref).map (fun input => { input with wires := [] }) =
      (graph.bare? ref.node).bind (·.inputs[ref.slot]?) := by
  rw [input?, bare?]
  cases graph.node? ref.node with
  | none => rfl
  | some node => exact (List.getElem?_map ..).symm

theorem form?_of_bare? (same : ∀ id, next.bare? id = graph.bare? id) (id : NodeId) :
    next.form? id = graph.form? id := by
  have forms (graph : Graph) : graph.form? id = (graph.bare? id).map Node.form := by
    rw [form?, bare?, Option.map_map]
    exact congrFun (congrArg Option.map (funext fun node => (Node.form_bare node).symm)) _
  rw [forms, forms, same]

theorem bare?_modifyNode {change : Node → Node} (same : ∀ node, (change node).bare = node.bare)
    (graph : Graph) (id other : NodeId) :
    (graph.modifyNode id change).bare? other = graph.bare? other := by
  rw [bare?, node?_modifyNode]
  split
  · subst other
    rw [Option.map_map, bare?]
    exact congrFun (congrArg Option.map (funext same)) _
  · rfl

@[simp] theorem bare?_join (graph : Graph) (source : OutputRef) (target : InputRef)
    (relays : List Position) (id : NodeId) :
    (graph.join source target relays).bare? id = graph.bare? id := by
  rw [join, modifyOutput, bare?_modifyNode, modifyInput, bare?_modifyNode]
  · intro node
    simp only [Node.bare, Node.mk.injEq, true_and, and_true]
    apply map_modify
    intro _
    rfl
  · intro node
    simp only [Node.bare, Node.mk.injEq, true_and]
    apply map_modify
    intro _
    rfl

@[simp] theorem bare?_restrict (graph : Graph) (keep : Keep) (id : NodeId) :
    (graph.restrict keep).bare? id = graph.bare? id := by
  rw [bare?, restrict, node?_restrictEnds, Option.map_map, bare?]
  exact congrFun (congrArg Option.map (funext (Node.bare_restrictEnds keep keep id))) _

@[simp] theorem bare?_link (graph : Graph) (source : OutputRef) (target : InputRef)
    (relays : List Position) (others : List (OutputRef × InputRef)) (id : NodeId) :
    (graph.link source target relays others).bare? id = graph.bare? id := by
  rw [link_eq_join, bare?_join, bare?_restrict]

end Graph

end NodeScript
