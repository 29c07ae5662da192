import NodeScript.Proofs.Graph.Edit

/-!
What accepted edits do. `Edit.Effect` lists what may become of a graph, and `Edit.Outcome` what may
become of its definitions. Main statements: every accepted edit has one of these effects
(`Edit.effect`) and one of these outcomes (`Edit.outcome`).
-/

set_option autoImplicit false
set_option relaxedAutoImplicit false

namespace NodeScript

namespace Graph

variable {graph next : Graph}

theorem Still.disconnect (graph : Graph) (source : OutputRef) (target : InputRef) :
    graph.Still (graph.disconnect source target).2 := by
  have unlinked : graph.Still (graph.unlink source target) := by
    rw [unlink_eq_restrict]
    exact .restrict graph _
  rcases disconnect_cases graph source target with same | same
  · rw [← same] at unlinked
    exact unlinked
  · rw [same]
    refine unlinked.trans (.modifyInput (fun input => ?_) _ _)
    split <;> rfl

end Graph

open NodeScript.Graph

/-- What may become of a graph. -/
inductive Edit.Effect (registry : Registry) (graph : Graph) : Edit → Graph → Prop where
  | still {edit : Edit} {next : Graph} (same : graph.Still next) : Effect registry graph edit next
  | builtin {type : String} {config config' : Json} {position : Position} {behavior : Behavior}
      {ports : Ports} (found : registry.behavior? type = some behavior)
      (canonical : behavior.canonical graph.schemas config = .ok (config', ports)) :
      Effect registry graph (.addBuiltin type config position)
        (graph.push (.ofPorts (.builtin type) config' ports position)).2
  | called {f : FunctionId} {position : Position} {id : NodeId} {next : Graph}
      (added : graph.addDefined (.call f) position = .ok (id, next)) :
      Effect registry graph (.addCall f position) next
  | constructed {s : StructId} {position : Position} {id : NodeId} {next : Graph}
      (added : graph.addDefined (.construct s) position = .ok (id, next)) :
      Effect registry graph (.addConstructor s position) next
  | removed {id : NodeId} {node : Node} {next : Graph} (free : graph.owns id = false)
      (detached : graph.detach? id = some (node, next)) : Effect registry graph (.remove id) next
  | definedFunction {signature : Signature} {position : Position} {f : FunctionId} {next : Graph}
      (accepted : graph.defineFunction signature position = .ok (f, next)) :
      Effect registry graph (.defineFunction signature position) next
  | definedStruct {schema : Schema} {position : Position} {s : StructId} {next : Graph}
      (accepted : graph.defineStruct schema position = .ok (s, next)) :
      Effect registry graph (.defineStruct schema position) next
  | redefinedFunction {previous f : FunctionId} {signature : Signature} {next : Graph}
      (accepted : graph.redefineFunction previous signature = .ok (some (f, next))) :
      Effect registry graph (.redefineFunction previous signature) next
  | redefinedStruct {previous s : StructId} {schema : Schema} {next : Graph}
      (accepted : graph.redefineStruct previous schema = .ok (some (s, next))) :
      Effect registry graph (.redefineStruct previous schema) next
  | removedFunction {f : FunctionId} :
      Effect registry graph (.removeFunction f) (graph.removeFunction f).2
  | removedStruct {s : StructId} :
      Effect registry graph (.removeStruct s) (graph.removeStruct s).2

variable {registry : Registry} {graph next : Graph} {edit : Edit}

theorem Graph.remove_eq_ok {id : NodeId} {node : Node}
    (accepted : graph.remove id = .ok (node, next)) :
    graph.owns id = false ∧ graph.detach? id = some (node, next) := by
  unfold Graph.remove at accepted
  split at accepted
  · simp at accepted
  · rename_i free
    split at accepted
    · rename_i removed detached
      obtain rfl := Except.ok.inj accepted
      exact ⟨by simpa using free, detached⟩
    · simp at accepted

theorem Edit.effect (accepted : edit.apply registry graph = .ok next) :
    edit.Effect registry graph next := by
  cases edit <;> simp only [apply, Accepted.map_iff, Prod.exists, Except.ok.injEq] at accepted
  case addBuiltin =>
    obtain ⟨_, _, accepted, rfl⟩ := accepted
    obtain ⟨behavior, config, ports, found, canonical, -, rfl⟩ := addBuiltin_eq_ok_iff.1 accepted
    exact .builtin found canonical
  case addCall =>
    obtain ⟨_, _, accepted, rfl⟩ := accepted
    exact .called accepted
  case addConstructor =>
    obtain ⟨_, _, accepted, rfl⟩ := accepted
    exact .constructed accepted
  case move =>
    obtain rfl := move_eq_ok accepted
    refine .still ?_
    apply Still.modifyNode
    intro _
    rfl
  case remove =>
    obtain ⟨_, _, accepted, rfl⟩ := accepted
    obtain ⟨free, detached⟩ := remove_eq_ok accepted
    exact .removed free detached
  case connect =>
    obtain ⟨others, -, linked⟩ := Accepted.bind_iff.1 accepted
    obtain rfl := Except.ok.inj linked
    exact .still (.link ..)
  case disconnect =>
    subst accepted
    exact .still (.disconnect ..)
  case setInset =>
    obtain ⟨-, -, -, rfl⟩ := setInset_eq_ok accepted
    refine .still ?_
    apply Still.modifyInput
    intro _
    rfl
  case defineFunction =>
    obtain ⟨_, _, accepted, rfl⟩ := accepted
    exact .definedFunction accepted
  case defineStruct =>
    obtain ⟨_, _, accepted, rfl⟩ := accepted
    exact .definedStruct accepted
  case redefineFunction =>
    obtain ⟨changed, accepted, rfl⟩ := accepted
    cases changed with
    | none => exact .still (.refl graph)
    | some changed => exact .redefinedFunction accepted
  case redefineStruct =>
    obtain ⟨changed, accepted, rfl⟩ := accepted
    cases changed with
    | none => exact .still (.refl graph)
    | some changed => exact .redefinedStruct accepted
  case removeFunction =>
    subst accepted
    exact .removedFunction
  case removeStruct =>
    subst accepted
    exact .removedStruct

/-- What may become of the definitions of a graph, whatever nodes they own. -/
inductive Edit.Outcome (registry : Registry) (graph : Graph) : Edit → Graph → Prop where
  | upkeep {edit : Edit} {next : Graph} (same : graph.Upkeep next) :
      Outcome registry graph edit next
  | builtin {type : String} {config config' : Json} {position : Position} {behavior : Behavior}
      {ports : Ports} (found : registry.behavior? type = some behavior)
      (canonical : behavior.canonical graph.schemas config = .ok (config', ports)) :
      Outcome registry graph (.addBuiltin type config position)
        (graph.push (.ofPorts (.builtin type) config' ports position)).2
  | withFunction {signature : Signature} {position : Position} {next : Graph}
      (fresh : graph.functionNamed? signature.name = none)
      (checked : graph.checkMentions signature.types [] = .ok ())
      (same : (graph.withFunction signature).Upkeep next) :
      Outcome registry graph (.defineFunction signature position) next
  | withStruct {schema : Schema} {position : Position} {next : Graph}
      (fresh : graph.structNamed? schema.name = none)
      (checked : graph.checkMentions (schema.fields.map Field.type) [schema.name] = .ok ())
      (same : (graph.withStruct schema).Upkeep next) :
      Outcome registry graph (.defineStruct schema position) next
  | redeclareFunction {previous : FunctionId} {signature : Signature} {next : Graph}
      (fresh : ∀ entry ∈ graph.functions, entry.id ≠ previous →
        entry.signature.name ≠ signature.name)
      (checked : graph.checkMentions signature.types [] = .ok ())
      (same : (graph.redeclareFunction previous signature).Upkeep next) :
      Outcome registry graph (.redefineFunction previous signature) next
  | redeclareStruct {previous : StructId} {schema : Schema} {old : StructEntry} {last : Graph}
      (found : graph.struct? previous = some old)
      (fresh : ∀ entry ∈ graph.structs, entry.id ≠ previous → entry.schema.name ≠ schema.name)
      (checked : graph.checkMentions (schema.fields.map Field.type)
        [schema.name, old.schema.name] = .ok ())
      (same : (graph.redeclareStruct previous schema).Upkeep last) :
      Outcome registry graph (.redefineStruct previous schema)
        { last with structs := inOrder last.structs }
  | withoutFunction {f : FunctionId} {next : Graph}
      (same : (graph.withoutFunction f).Upkeep next) :
      Outcome registry graph (.removeFunction f) next
  | withoutStruct {s : StructId} {old : StructEntry} {next : Graph}
      (found : graph.struct? s = some old) (same : (graph.withoutStruct s).Upkeep next) :
      Outcome registry graph (.removeStruct s) next

theorem Edit.Effect.outcome (effect : edit.Effect registry graph next) :
    edit.Outcome registry graph next := by
  cases effect with
  | still same => exact .upkeep same.upkeep
  | builtin found canonical => exact .builtin found canonical
  | called added => exact .upkeep (.addDefined added)
  | constructed added => exact .upkeep (.addDefined added)
  | removed _ detached => exact .upkeep (.detach? detached)
  | definedFunction accepted =>
    obtain ⟨input, first, output, second, checked, fresh, rfl, hinput, houtput, rfl⟩ :=
      defineFunction_eq_ok accepted
    exact .withFunction fresh checked (((Upkeep.addDefined hinput).trans
      (.addDefined houtput)).trans (.modifyFunction second _ fun _ => ⟨rfl, rfl⟩))
  | definedStruct accepted =>
    obtain ⟨boundary, first, checked, fresh, rfl, hnode, rfl⟩ := defineStruct_eq_ok accepted
    exact .withStruct fresh checked
      ((Upkeep.addDefined hnode).trans (.modifyStruct first _ fun _ => ⟨rfl, rfl⟩))
  | redefinedFunction accepted =>
    obtain ⟨old, middle, -, -, fresh, checked, replaced, completed⟩ :=
      redefineFunction_eq_some accepted
    exact .redeclareFunction fresh checked
      ((Upkeep.foldlM (fun _ _ _ => .replaceBound) replaced).trans (.completeDefinitions completed))
  | redefinedStruct accepted =>
    obtain ⟨old, middle, last, found, -, fresh, checked, replaced, completed, rfl⟩ :=
      redefineStruct_eq_some accepted
    exact .redeclareStruct found fresh checked ((Upkeep.foldlM (fun _ _ _ => .replaceConstructor)
      replaced).trans (.completeDefinitions completed))
  | @removedFunction f =>
    unfold Graph.removeFunction
    split
    · exact .upkeep (.refl graph)
    · exact .withoutFunction (.foldl (fun _ _ => .detach ..) _ _)
  | @removedStruct s =>
    unfold Graph.removeStruct
    split
    · exact .upkeep (.refl graph)
    · exact .withoutStruct ‹_› (.foldl (fun _ _ => .detach ..) _ _)

theorem Edit.outcome (accepted : edit.apply registry graph = .ok next) :
    edit.Outcome registry graph next :=
  (Edit.effect accepted).outcome

end NodeScript
