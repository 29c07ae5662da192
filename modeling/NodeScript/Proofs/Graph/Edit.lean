import NodeScript.Proofs.Catalog.Config
import NodeScript.Proofs.Graph.Rebound

/-!
Edits as data, and the graphs that they lead to. Main statement: every accepted edit keeps a graph
well-formed (`Edit.wellFormed`), and so does every sequence of them.
-/

set_option autoImplicit false
set_option relaxedAutoImplicit false

namespace NodeScript

/-- A change of a graph that its users can ask for. -/
inductive Edit where
  | addBuiltin (id : String) (config : Json) (position : Position)
  | addCall (function : FunctionId) (position : Position)
  | addConstructor (struct : StructId) (position : Position)
  | move (node : NodeId) (position : Position)
  | remove (node : NodeId)
  | connect (source : OutputRef) (target : InputRef) (relays : List Position)
  | disconnect (source : OutputRef) (target : InputRef)
  | setInset (target : InputRef) (value : Option Value)
  | defineFunction (signature : Signature) (position : Position)
  | defineStruct (schema : Schema) (position : Position)
  | redefineFunction (function : FunctionId) (signature : Signature)
  | redefineStruct (struct : StructId) (schema : Schema)
  | removeFunction (function : FunctionId)
  | removeStruct (struct : StructId)

namespace Edit

/-- The graph after an edit, or why the edit is refused. -/
def apply (registry : Registry) (graph : Graph) : Edit → Except GraphError Graph
  | addBuiltin id config position => (graph.addBuiltin registry id config position).map (·.2)
  | addCall f position => (graph.addDefined (.call f) position).map (·.2)
  | addConstructor s position => (graph.addDefined (.construct s) position).map (·.2)
  | move node position => graph.move node position
  | remove node => (graph.remove node).map (·.2)
  | connect source target relays => graph.connect source target relays
  | disconnect source target => .ok (graph.disconnect source target).2
  | setInset target value => graph.setInset target value
  | defineFunction signature position => (graph.defineFunction signature position).map (·.2)
  | defineStruct schema position => (graph.defineStruct schema position).map (·.2)
  | redefineFunction f signature =>
    (graph.redefineFunction f signature).map fun changed => (changed.map (·.2)).getD graph
  | redefineStruct s schema =>
    (graph.redefineStruct s schema).map fun changed => (changed.map (·.2)).getD graph
  | removeFunction f => .ok (graph.removeFunction f).2
  | removeStruct s => .ok (graph.removeStruct s).2

end Edit

/-- The graphs that steps lead to from certain first ones. -/
inductive Reached (first : Graph → Prop) (step : Graph → Graph → Prop) : Graph → Prop where
  | first {graph : Graph} (h : first graph) : Reached first step graph
  | step {graph next : Graph} (before : Reached first step graph) (made : step graph next) :
    Reached first step next

/-- One graph is made of another by an edit of an allowed kind, which is accepted for one of certain
catalogs. -/
def Edit.Leads (catalogs : Registry → Prop) (allowed : Graph → Edit → Prop) (graph next : Graph) :
    Prop :=
  ∃ registry edit, catalogs registry ∧ allowed graph edit ∧ edit.apply registry graph = .ok next

namespace Reached

variable {first : Graph → Prop} {catalogs : Registry → Prop} {allowed : Graph → Edit → Prop}
  {registry : Registry} {graph next : Graph}

theorem mono {first' : Graph → Prop} {step step' : Graph → Graph → Prop}
    (firsts : ∀ graph, first graph → first' graph)
    (steps : ∀ graph next, step graph next → step' graph next)
    (reached : Reached first step graph) : Reached first' step' graph := by
  induction reached with
  | first h => exact .first (firsts _ h)
  | step _ made ih => exact .step ih (steps _ _ made)

theorem edit {edit : Edit} (reached : Reached first (Edit.Leads catalogs allowed) graph)
    (catalog : catalogs registry) (allows : allowed graph edit)
    (accepted : edit.apply registry graph = .ok next) :
    Reached first (Edit.Leads catalogs allowed) next := by
  exact .step reached ⟨registry, edit, catalog, allows, accepted⟩

/-- What is reached by a list of edits that are allowed anywhere. -/
theorem foldlM {edits : List Edit} (catalog : catalogs registry)
    (reached : Reached first (Edit.Leads catalogs allowed) graph)
    (allows : ∀ edit ∈ edits, ∀ graph, allowed graph edit)
    (accepted : edits.foldlM (Edit.apply registry) graph = .ok next) :
    Reached first (Edit.Leads catalogs allowed) next := by
  induction edits generalizing graph with
  | nil =>
    obtain rfl := Except.ok.inj accepted
    exact reached
  | cons edit edits ih =>
    obtain ⟨made, applied, accepted⟩ := Accepted.bind_iff.1 accepted
    refine ih (reached.edit catalog (allows edit List.mem_cons_self graph) applied) ?_ accepted
    intro other mem
    exact allows other (List.mem_cons_of_mem _ mem)

end Reached

namespace Graph

variable {registry : Registry} {admits : Admits} {graph next : Graph}

theorem addBuiltin_eq_ok_iff {type : String} {config : Json} {position : Position} {id : NodeId} :
    graph.addBuiltin registry type config position = .ok (id, next) ↔
      ∃ behavior config' ports, registry.behavior? type = some behavior ∧
        behavior.canonical graph.schemas config = .ok (config', ports) ∧
        id = ⟨graph.arena.size⟩ ∧
        next = (graph.push (.ofPorts (.builtin type) config' ports position)).2 := by
  unfold addBuiltin
  cases registry.behavior? type with
  | none => simp
  | some behavior =>
    simp only [Accepted.bind_iff, Prod.exists, pure, Except.pure, Except.ok.injEq, push,
      Prod.mk.injEq]
    constructor
    · rintro ⟨config', ports, canonical, rfl, rfl⟩
      exact ⟨behavior, config', ports, rfl, canonical, rfl, rfl⟩
    · rintro ⟨_, config', ports, same, canonical, rfl, rfl⟩
      cases same
      exact ⟨config', ports, canonical, rfl, rfl⟩

theorem WellFormed.push (formed : graph.WellFormed admits) {kind : NodeKind} {config : Json}
    {ports : Ports} (position : Position) (fits : graph.Fits admits ⟨kind, config, ports⟩) :
    (graph.push (.ofPorts kind config ports position)).2.WellFormed admits :=
  { formed.toSound.push position fits with complete := formed.complete.congr rfl rfl }

theorem WellFormed.addBuiltin (formed : graph.WellFormed admits) {type : String} {config : Json}
    {position : Position} {id : NodeId}
    (all : ∀ type config ports, registry.Canonical type config ports → admits type config ports)
    (accepted : graph.addBuiltin registry type config position = .ok (id, next)) :
    next.WellFormed admits := by
  obtain ⟨behavior, config', ports, found, canonical, -, rfl⟩ := addBuiltin_eq_ok_iff.1 accepted
  exact formed.push position (all _ _ _ ⟨behavior, graph.schemas, config, found, canonical⟩)

theorem WellFormed.addDefined (formed : graph.WellFormed admits) {kind : NodeKind}
    {position : Position} {id : NodeId}
    (accepted : graph.addDefined kind position = .ok (id, next)) : next.WellFormed admits := by
  obtain ⟨ports, hports, -, rfl⟩ := addDefined_eq_ok_iff.1 accepted
  exact formed.push position (fits_of_definedPorts hports)

theorem WellFormed.of_sound (formed : graph.WellFormed admits)
    (sound : next.Sound admits fun _ => False) (functions : next.functions = graph.functions)
    (structs : next.structs = graph.structs) : next.WellFormed admits :=
  { sound with complete := formed.complete.congr functions structs }

theorem WellFormed.connect (formed : graph.WellFormed admits) {source : OutputRef}
    {target : InputRef} {relays : List Position}
    (accepted : graph.connect source target relays = .ok next) : next.WellFormed admits := by
  obtain ⟨others, displaced, linked⟩ := Accepted.bind_iff.1 accepted
  simp only [pure, Except.pure, Except.ok.injEq] at linked
  subst linked
  obtain ⟨output, input, joinable, rfl⟩ := joinable_of_displacedBy displaced
  refine formed.of_sound (formed.link joinable relays) ?_ ?_ <;> (rw [link_eq_join]; rfl)

theorem disconnect_cases (graph : Graph) (source : OutputRef) (target : InputRef) :
    (graph.disconnect source target).2 = graph.unlink source target ∨
      (graph.disconnect source target).2 = (graph.unlink source target).modifyInput target
        fun input => if input.port.isSignal then input else { input with inset := none } := by
  unfold disconnect
  cases graph.output source with
  | error _ => exact .inl rfl
  | ok output =>
    by_cases linked : target ∈ output.targets
    · exact .inr (by simp [linked])
    · exact .inl (by simp [linked])

theorem WellFormed.disconnect (formed : graph.WellFormed admits) (source : OutputRef)
    (target : InputRef) : (graph.disconnect source target).2.WellFormed admits := by
  have unlinked : (graph.unlink source target).WellFormed admits := by
    rw [unlink_eq_restrict]
    exact formed.of_sound (formed.restrict _) rfl rfl
  have cleared : ((graph.unlink source target).modifyInput target fun input =>
      if input.port.isSignal then input else { input with inset := none }).WellFormed admits := by
    refine unlinked.of_sound (unlinked.modifyInput target (fun input => ?_) ?_) rfl rfl
    · split <;> exact ⟨rfl, rfl⟩
    · intro input value hi hv
      split at hv
      · exact unlinked.insets target input value hi hv
      · simp at hv
  rcases disconnect_cases graph source target with same | same
  · rw [← same] at unlinked
    exact unlinked
  · rw [same]
    exact cleared

theorem setInset_eq_ok {target : InputRef} {value : Option Value}
    (accepted : graph.setInset target value = .ok next) :
    ∃ input, graph.input? target = some input ∧
      (∀ v, value = some v → input.port.type.accepts v = true) ∧
      next = graph.modifyInput target fun input => { input with inset := value } := by
  obtain ⟨input, hi, accepted⟩ := Accepted.bind_iff.1 accepted
  refine ⟨input, input_eq_ok_iff.1 hi, ?_⟩
  cases value with
  | none =>
    simp only [pure, Except.pure, Except.ok.injEq] at accepted
    exact ⟨fun v h => by simp at h, accepted.symm⟩
  | some v =>
    dsimp only at accepted
    split at accepted
    · obtain ⟨_, refused, -⟩ := Accepted.bind_iff.1 accepted
      exact absurd refused (Accepted.throw_ne _ _)
    · rename_i fits
      simp only [pure, Except.pure, Except.ok.injEq] at accepted
      refine ⟨fun w h => ?_, accepted.symm⟩
      cases h
      simpa using fits

theorem WellFormed.setInset (formed : graph.WellFormed admits) {target : InputRef}
    {value : Option Value} (accepted : graph.setInset target value = .ok next) :
    next.WellFormed admits := by
  obtain ⟨input, hi, fits, rfl⟩ := setInset_eq_ok accepted
  refine formed.of_sound (formed.modifyInput target (fun _ => ⟨rfl, rfl⟩) ?_) rfl rfl
  intro old v hold hv
  rw [hi, Option.some.injEq] at hold
  subst hold
  exact fits v hv

theorem move_eq_ok {id : NodeId} {position : Position}
    (accepted : graph.move id position = .ok next) :
    next = graph.modifyNode id fun node => { node with position } := by
  unfold move at accepted
  split at accepted
  · simp at accepted
  · simpa using accepted.symm

theorem WellFormed.move (formed : graph.WellFormed admits) {id : NodeId} {position : Position}
    (accepted : graph.move id position = .ok next) : next.WellFormed admits := by
  have moved := move_eq_ok accepted
  subst moved
  have inputs (ref : InputRef) :
      (graph.modifyNode id fun node => { node with position }).input? ref =
      graph.input? ref := by
    simp only [input?, node?_modifyNode]
    split
    · rename_i h
      rw [h]
      cases graph.node? id <;> rfl
    · rfl
  have outputs (ref : OutputRef) :
      (graph.modifyNode id fun node => { node with position }).output? ref = graph.output? ref := by
    simp only [output?, node?_modifyNode]
    split
    · rename_i h
      rw [h]
      cases graph.node? id <;> rfl
    · rfl
  refine formed.of_sound (formed.of_forms ?_ ?_ ?_ rfl rfl rfl ?_) rfl rfl
  · have same (ref : InputRef) :
        (graph.modifyNode id fun node => { node with position }).input? ref =
          (graph.input? ref).map fun input => input := by
      rw [inputs, Option.map_id']
    exact formed.wired.of_inputs same outputs (fun _ _ => rfl) fun _ _ => rfl
  · refine formed.acyclic.of_inputs fun ref input hi _ => ?_
    refine ⟨input, ?_, rfl, ?_⟩
    · rw [inputs ref] at hi
      exact hi
    · intro _ h
      exact h
  · intro ref input value hi hv
    rw [inputs ref] at hi
    exact formed.insets ref input value hi hv
  · intro other
    apply form?_modifyNode
    intro _
    rfl

theorem WellFormed.remove (formed : graph.WellFormed admits) {id : NodeId} {node : Node}
    (accepted : graph.remove id = .ok (node, next)) : next.WellFormed admits := by
  unfold Graph.remove at accepted
  split at accepted
  · simp at accepted
  rename_i free
  split at accepted
  · rename_i removed detached
    simp only [Except.ok.injEq] at accepted
    subst accepted
    rw [formed.wired.detach?_eq, Option.map_eq_some_iff] at detached
    obtain ⟨found, -, same⟩ := detached
    rw [Prod.mk.injEq] at same
    rw [← same.2]
    exact formed.of_sound (formed.detached (by simpa using free)) rfl rfl
  · simp at accepted

theorem checkMentions_eq_ok {types : List DataType} {declaring : List String}
    (accepted : graph.checkMentions types declaring = .ok ()) {type : DataType}
    (ht : type ∈ types) {schema : Schema} (hs : type.schema? = some schema) :
    (graph.structNamed? schema.name).isSome = true ∧
      graph.structLeadsTo schema.name declaring = false := by
  have checked := Accepted.forM_iff.1 accepted schema (List.mem_filterMap.2 ⟨type, ht, hs⟩)
  split at checked
  · simp at checked
  · rename_i fine
    simpa [Option.isSome_iff_ne_none] using fine

theorem defineFunction_eq_ok {signature : Signature} {position : Position} {f : FunctionId}
    (accepted : graph.defineFunction signature position = .ok (f, next)) :
    ∃ input first output second,
      graph.checkMentions signature.types [] = .ok () ∧
      graph.functionNamed? signature.name = none ∧ f = ⟨graph.nextDefinition⟩ ∧
      (graph.withFunction signature).addDefined (.functionInput f) position = .ok (input, first) ∧
      first.addDefined (.functionOutput f) ⟨position.x.add boundaryGap, position.y⟩ =
        .ok (output, second) ∧
      next = second.modifyFunction f fun entry =>
        { entry with input := some input, output := some output } := by
  obtain ⟨_, checked, accepted⟩ := Accepted.bind_iff.1 accepted
  obtain ⟨⟨id, declared⟩, declaring, accepted⟩ := Accepted.bind_iff.1 accepted
  obtain ⟨⟨input, first⟩, hinput, accepted⟩ := Accepted.bind_iff.1 accepted
  obtain ⟨⟨output, second⟩, houtput, accepted⟩ := Accepted.bind_iff.1 accepted
  simp only [pure, Except.pure, Except.ok.injEq, Prod.mk.injEq] at accepted
  obtain ⟨rfl, rfl⟩ := accepted
  obtain ⟨fresh, rfl, rfl⟩ := declareFunction_eq_ok_iff.1 declaring
  exact ⟨input, first, output, second, checked, fresh, rfl, hinput, houtput, rfl⟩

theorem WellFormed.defineFunction (formed : graph.WellFormed admits) {signature : Signature}
    {position : Position} {f : FunctionId}
    (accepted : graph.defineFunction signature position = .ok (f, next)) :
    next.WellFormed admits := by
  obtain ⟨input, first, output, second, -, fresh, rfl, hinput, houtput, rfl⟩ :=
    defineFunction_eq_ok accepted
  obtain ⟨sound₁, hasInput⟩ := (formed.withFunction fresh).addDefined hinput
  obtain ⟨sound₂, hasOutput⟩ := sound₁.addDefined houtput
  obtain ⟨_, -, -, rfl⟩ := addDefined_eq_ok_iff.1 hinput
  obtain ⟨_, -, -, rfl⟩ := addDefined_eq_ok_iff.1 houtput
  have sound := sound₂.modifyFunction ⟨graph.nextDefinition⟩
    (fun entry => { entry with input := some input, output := some output })
    (fun _ => ⟨rfl, rfl⟩)
    (fun entry _ _ node h => by
      obtain rfl := Option.some.inj h
      exact .inr (hasInput.push _))
    (fun entry _ _ node h => by
      obtain rfl := Option.some.inj h
      exact .inr hasOutput)
  have filled : ∀ entry ∈ (graph.withFunction signature).functions,
      entry.id ≠ ⟨graph.nextDefinition⟩ → entry.input.isSome ∧ entry.output.isSome := by
    intro entry he other
    rcases mem_withFunction.1 he with he | rfl
    · exact ⟨formed.complete.inputs entry he, formed.complete.outputs entry he⟩
    · exact absurd rfl other
  refine { sound with complete := ⟨?_, ?_, formed.complete.constructors⟩ }
  · intro entry he
    obtain ⟨old, hold, rfl⟩ := List.mem_map.1 he
    split
    · rfl
    · exact (filled old hold ‹_›).1
  · intro entry he
    obtain ⟨old, hold, rfl⟩ := List.mem_map.1 he
    split
    · rfl
    · exact (filled old hold ‹_›).2

theorem defineStruct_eq_ok {schema : Schema} {position : Position} {s : StructId}
    (accepted : graph.defineStruct schema position = .ok (s, next)) :
    ∃ boundary first,
      graph.checkMentions (schema.fields.map Field.type) [schema.name] = .ok () ∧
      graph.structNamed? schema.name = none ∧ s = ⟨graph.nextDefinition⟩ ∧
      (graph.withStruct schema).addDefined (.construct s) position = .ok (boundary, first) ∧
      next = first.modifyStruct s fun entry => { entry with boundary := some boundary } := by
  unfold Graph.defineStruct at accepted
  split at accepted
  · simp [Accepted.bind_iff] at accepted
  obtain ⟨_, checked, accepted⟩ := Accepted.bind_iff.1 accepted
  obtain ⟨⟨id, declared⟩, declaring, accepted⟩ := Accepted.bind_iff.1 accepted
  obtain ⟨⟨node, first⟩, hnode, accepted⟩ := Accepted.bind_iff.1 accepted
  simp only [pure, Except.pure, Except.ok.injEq, Prod.mk.injEq] at accepted
  obtain ⟨rfl, rfl⟩ := accepted
  obtain ⟨fresh, rfl, rfl⟩ := declareStruct_eq_ok_iff.1 declaring
  exact ⟨node, first, checked, fresh, rfl, hnode, rfl⟩

theorem WellFormed.defineStruct (formed : graph.WellFormed admits) {schema : Schema}
    {position : Position} {s : StructId}
    (accepted : graph.defineStruct schema position = .ok (s, next)) :
    next.WellFormed admits := by
  obtain ⟨boundary, first, -, fresh, rfl, hnode, rfl⟩ := defineStruct_eq_ok accepted
  obtain ⟨sound₁, has⟩ := (formed.withStruct fresh).addDefined hnode
  obtain ⟨_, -, -, rfl⟩ := addDefined_eq_ok_iff.1 hnode
  have sound := sound₁.modifyStruct ⟨graph.nextDefinition⟩
    (fun entry => { entry with boundary := some boundary }) (fun _ => ⟨rfl, rfl⟩)
    (fun entry _ _ node h => by
      obtain rfl := Option.some.inj h
      exact .inr has)
  refine { sound with complete := ⟨formed.complete.inputs, formed.complete.outputs, ?_⟩ }
  intro entry he
  obtain ⟨old, hold, rfl⟩ := List.mem_map.1 he
  split
  · rfl
  · rename_i other
    rcases mem_withStruct.1 hold with hold | rfl
    · exact formed.complete.constructors old hold
    · exact absurd rfl other

end Graph

/-- An accepted edit keeps a graph well-formed. -/
theorem Edit.wellFormed {registry : Registry} {admits : Graph.Admits} {graph next : Graph}
    {edit : Edit}
    (all : ∀ type config ports, registry.Canonical type config ports → admits type config ports)
    (formed : graph.WellFormed admits) (accepted : edit.apply registry graph = .ok next) :
    next.WellFormed admits := by
  cases edit <;> simp only [apply, Accepted.map_iff, Prod.exists, Except.ok.injEq] at accepted
  case addBuiltin =>
    obtain ⟨_, _, accepted, rfl⟩ := accepted
    exact formed.addBuiltin all accepted
  case addCall =>
    obtain ⟨_, _, accepted, rfl⟩ := accepted
    exact formed.addDefined accepted
  case addConstructor =>
    obtain ⟨_, _, accepted, rfl⟩ := accepted
    exact formed.addDefined accepted
  case move => exact formed.move accepted
  case remove =>
    obtain ⟨_, _, accepted, rfl⟩ := accepted
    exact formed.remove accepted
  case connect => exact formed.connect accepted
  case disconnect =>
    subst accepted
    exact formed.disconnect ..
  case setInset => exact formed.setInset accepted
  case defineFunction =>
    obtain ⟨_, _, accepted, rfl⟩ := accepted
    exact formed.defineFunction accepted
  case defineStruct =>
    obtain ⟨_, _, accepted, rfl⟩ := accepted
    exact formed.defineStruct accepted
  case redefineFunction =>
    obtain ⟨changed, accepted, rfl⟩ := accepted
    cases changed with
    | none => exact formed
    | some changed => exact formed.redefineFunction accepted
  case redefineStruct =>
    obtain ⟨changed, accepted, rfl⟩ := accepted
    cases changed with
    | none => exact formed
    | some changed => exact formed.redefineStruct accepted
  case removeFunction =>
    subst accepted
    exact formed.removeFunction _
  case removeStruct =>
    subst accepted
    exact formed.removeStruct _

theorem Reached.wellFormed {catalogs : Registry → Prop} {admits : Graph.Admits}
    {first : Graph → Prop} {allowed : Graph → Edit → Prop}
    (all : ∀ registry, catalogs registry →
      ∀ type config ports, registry.Canonical type config ports → admits type config ports)
    (start : ∀ graph, first graph → graph.WellFormed admits)
    {graph : Graph} (reached : Reached first (Edit.Leads catalogs allowed) graph) :
    graph.WellFormed admits := by
  induction reached with
  | first h => exact start _ h
  | step _ made ih =>
    obtain ⟨registry, edit, catalog, -, accepted⟩ := made
    exact Edit.wellFormed (all registry catalog) ih accepted

end NodeScript
