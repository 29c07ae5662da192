import NodeScript.Proofs.Graph.Acyclic
import NodeScript.Proofs.Graph.Declared

/-!
Well-formed graphs. A graph is sound when its wires agree and form no loop, its literals fit, its
definitions are told apart, each of its nodes has the ports of its type or definition, and the
nodes that a definition owns are of the right kind; it is well-formed when no definition lacks a
node. Main statements: each operation that edits are made of keeps a graph sound.
-/

set_option autoImplicit false
set_option relaxedAutoImplicit false

namespace NodeScript.Graph

/-- Which configurations and ports nodes of registered types may have. -/
abbrev Admits := String → Json → Ports → Prop

/-- A form is one that its type or its definition gives. -/
def Fits (admits : Admits) (graph : Graph) (form : Form) : Prop :=
  match form.kind with
  | .builtin id => admits id form.config form.ports
  | kind => graph.definedPorts kind = .ok form.ports ∧ form.config = .null

/-- The nodes that definitions own are there and of the right kinds. -/
structure Owned (graph : Graph) : Prop where
  inputs : ∀ entry ∈ graph.functions, ∀ id, entry.input = some id →
    graph.HasKind id (.functionInput entry.id)
  outputs : ∀ entry ∈ graph.functions, ∀ id, entry.output = some id →
    graph.HasKind id (.functionOutput entry.id)
  constructors : ∀ entry ∈ graph.structs, ∀ id, entry.boundary = some id →
    graph.HasKind id (.construct entry.id)

/-- No definition lacks a node. -/
structure Complete (graph : Graph) : Prop where
  inputs : ∀ entry ∈ graph.functions, entry.input.isSome
  outputs : ∀ entry ∈ graph.functions, entry.output.isSome
  constructors : ∀ entry ∈ graph.structs, entry.boundary.isSome

/-- All is in order but for nodes of the excused kinds, which may lack their definition. -/
structure Sound (admits : Admits) (excused : NodeKind → Prop) (graph : Graph) : Prop where
  wired : graph.Wired
  acyclic : graph.Acyclic
  insets : graph.InsetsFit
  declared : graph.Declared
  fits : ∀ id form, graph.form? id = some form →
    excused form.kind ∨ graph.Fits admits form
  owned : graph.Owned

/-- All is in order. -/
structure WellFormed (admits : Admits) (graph : Graph) : Prop
    extends Sound admits (fun _ => False) graph where
  complete : graph.Complete

variable {admits : Admits} {excused : NodeKind → Prop} {graph next : Graph}

theorem WellFormed.fit (formed : graph.WellFormed admits) {id : NodeId} {form : Form}
    (h : graph.form? id = some form) : graph.Fits admits form := by
  exact (formed.fits id form h).resolve_left fun h => h

theorem WellFormed.admitted (formed : graph.WellFormed admits) {id : NodeId} {form : Form}
    {type : String} (found : graph.form? id = some form) (kind : form.kind = .builtin type) :
    admits type form.config form.ports := by
  have fits := formed.fit found
  rwa [Fits, kind] at fits

theorem Fits.imp {admits' : Admits} {form : Form} (fits : graph.Fits admits form)
    (weaker : ∀ id config ports, admits id config ports → admits' id config ports) :
    graph.Fits admits' form := by
  unfold Fits at fits ⊢
  cases kind : form.kind <;> simp only [kind] at fits ⊢
  case builtin => exact weaker _ _ _ fits
  all_goals exact fits

theorem WellFormed.imp {admits' : Admits} (formed : graph.WellFormed admits)
    (weaker : ∀ id config ports, admits id config ports → admits' id config ports) :
    graph.WellFormed admits' where
  wired := formed.wired
  acyclic := formed.acyclic
  insets := formed.insets
  declared := formed.declared
  fits _ _ found := .inr ((formed.fit found).imp weaker)
  owned := formed.owned
  complete := formed.complete

def Mirrors (graph : Graph) (ports : Ports) : NodeKind → Prop
  | .builtin _ => True
  | .call f => ∃ entry ∈ graph.functions, entry.id = f ∧ ports = entry.signature.callPorts
  | .functionInput f => ∃ entry ∈ graph.functions, entry.id = f ∧ ports = entry.signature.inputPorts
  | .functionOutput f =>
    ∃ entry ∈ graph.functions, entry.id = f ∧ ports = entry.signature.outputPorts
  | .construct s => ∃ entry ∈ graph.structs, entry.id = s ∧ ports = entry.schema.ports

theorem WellFormed.mirrors (formed : graph.WellFormed admits) {id : NodeId} {form : Form}
    (found : graph.form? id = some form) : graph.Mirrors form.ports form.kind := by
  have fits := formed.fit found
  have ofFunction {f : FunctionId} (of : form.kind.function? = some f)
      (defined : graph.definedPorts form.kind = .ok form.ports) :
      ∃ entry ∈ graph.functions, entry.id = f ∧ form.ports = form.kind.portsOf entry.signature := by
    obtain ⟨signature, declared, same⟩ := signature_of_definedPorts of defined
    obtain ⟨entry, member, is, rfl⟩ := formed.declared.signature?_eq_some_iff.1 declared
    exact ⟨entry, member, is, same⟩
  cases kind : form.kind with
  | builtin type => trivial
  | call f | functionInput f | functionOutput f =>
    simp only [Fits, kind] at fits
    simp only [kind] at ofFunction
    exact ofFunction rfl fits.1
  | construct s =>
    simp only [Fits, kind] at fits
    obtain ⟨schema, declared, same⟩ := schema_of_definedPorts fits.1
    obtain ⟨entry, member, is, rfl⟩ := formed.declared.schemaAt?_eq_some_iff.1 declared
    exact ⟨entry, member, is, same⟩

theorem wellFormed_empty : empty.WellFormed admits where
  wired := wired_empty
  acyclic := acyclic_empty
  insets := insetsFit_empty
  declared := declared_empty
  fits := by simp [form?, node?, empty]
  owned := by constructor <;> simp [empty]
  complete := by constructor <;> simp [empty]

theorem Fits.congr {form : Form} (fits : graph.Fits admits form)
    (same : next.definedPorts form.kind = graph.definedPorts form.kind) :
    next.Fits admits form := by
  unfold Fits at *
  cases hk : form.kind <;> simp only [hk] at fits same ⊢
  case builtin => exact fits
  all_goals exact ⟨same.trans fits.1, fits.2⟩

theorem HasKind.congr {id : NodeId} {kind : NodeKind} (has : graph.HasKind id kind)
    (same : next.form? id = graph.form? id) : next.HasKind id kind := by
  obtain ⟨form, hf, hk⟩ := has
  exact ⟨form, same.trans hf, hk⟩

theorem HasKind.unique {id : NodeId} {kind kind' : NodeKind} (has : graph.HasKind id kind)
    (has' : graph.HasKind id kind') : kind = kind' := by
  obtain ⟨form, hf, rfl⟩ := has
  obtain ⟨form', hf', rfl⟩ := has'
  rw [hf, Option.some.injEq] at hf'
  rw [hf']

theorem Owned.input_ne_output (owned : graph.Owned) {entry : FunctionEntry}
    (member : entry ∈ graph.functions) {id : NodeId} (input : entry.input = some id) :
    entry.output ≠ some id := fun output => by
  have kinds := (owned.inputs entry member id input).unique (owned.outputs entry member id output)
  simp at kinds

theorem Owned.of_forms (owned : graph.Owned) (functions : next.functions = graph.functions)
    (structs : next.structs = graph.structs)
    (forms : ∀ id, graph.owns id = true → next.form? id = graph.form? id) : next.Owned where
  inputs entry he id h := by
    rw [functions] at he
    refine (owned.inputs entry he id h).congr (forms id ?_)
    rw [owns, Bool.or_eq_true, List.any_eq_true]
    exact .inl ⟨entry, he, by simp [h]⟩
  outputs entry he id h := by
    rw [functions] at he
    refine (owned.outputs entry he id h).congr (forms id ?_)
    rw [owns, Bool.or_eq_true, List.any_eq_true]
    exact .inl ⟨entry, he, by simp [h]⟩
  constructors entry he id h := by
    rw [structs] at he
    refine (owned.constructors entry he id h).congr (forms id ?_)
    rw [owns, Bool.or_eq_true, List.any_eq_true, List.any_eq_true]
    exact .inr ⟨entry, he, by simp [h]⟩

theorem Declared.congr (declared : graph.Declared) (functions : next.functions = graph.functions)
    (structs : next.structs = graph.structs)
    (nextDefinition : next.nextDefinition = graph.nextDefinition) : next.Declared where
  functionIds := by
    rw [functions]
    exact declared.functionIds
  functionNames := by
    rw [functions]
    exact declared.functionNames
  structIds := by
    rw [structs]
    exact declared.structIds
  structNames := by
    rw [structs]
    exact declared.structNames
  functionsOlder := by
    rw [functions, nextDefinition]
    exact declared.functionsOlder
  structsOlder := by
    rw [structs, nextDefinition]
    exact declared.structsOlder

theorem definedPorts_of_definitions (functions : next.functions = graph.functions)
    (structs : next.structs = graph.structs) (kind : NodeKind) :
    next.definedPorts kind = graph.definedPorts kind := by
  apply definedPorts_congr
  · intro f _
    rw [signature?, function?, functions]
    rfl
  · intro s _
    rw [schemaAt?, struct?, structs]
    rfl

theorem Complete.congr (complete : graph.Complete) (functions : next.functions = graph.functions)
    (structs : next.structs = graph.structs) : next.Complete where
  inputs := by
    rw [functions]
    exact complete.inputs
  outputs := by
    rw [functions]
    exact complete.outputs
  constructors := by
    rw [structs]
    exact complete.constructors

theorem Sound.of_forms (sound : graph.Sound admits excused) (wired : next.Wired)
    (acyclic : next.Acyclic) (insets : next.InsetsFit)
    (functions : next.functions = graph.functions) (structs : next.structs = graph.structs)
    (nextDefinition : next.nextDefinition = graph.nextDefinition)
    (forms : ∀ id, next.form? id = graph.form? id) : next.Sound admits excused where
  wired := wired
  acyclic := acyclic
  insets := insets
  declared := sound.declared.congr functions structs nextDefinition
  fits id form h := by
    rw [forms] at h
    exact (sound.fits id form h).imp_right fun fits =>
      fits.congr (definedPorts_of_definitions functions structs form.kind)
  owned := sound.owned.of_forms functions structs fun id _ => forms id

theorem Sound.link (sound : graph.Sound admits excused) {source : OutputRef} {target : InputRef}
    {output : Output} {input : Input} (joinable : graph.Joinable source target output input)
    (relays : List Position) :
    (graph.link source target relays (displaced source target output input)).Sound admits
      excused :=
  sound.of_forms (sound.wired.link joinable relays)
    (sound.acyclic.link sound.wired joinable relays) (sound.insets.link source target relays _)
    (by rw [link_eq_join]; rfl) (by rw [link_eq_join]; rfl) (by rw [link_eq_join]; rfl)
    (form?_link graph source target relays _)

theorem Sound.restrict (sound : graph.Sound admits excused) (keep : Keep) :
    (graph.restrict keep).Sound admits excused := by
  exact sound.of_forms (sound.wired.restrict keep) (sound.acyclic.restrict keep)
    (sound.insets.restrict keep) rfl rfl rfl (form?_restrict graph keep)

/-- Literals that fit may be changed. -/
theorem Sound.modifyInput (sound : graph.Sound admits excused) (ref : InputRef)
    {change : Input → Input}
    (same : ∀ input, (change input).port = input.port ∧ (change input).wires = input.wires)
    (accepted : ∀ input value, graph.input? ref = some input → (change input).inset = some value →
      input.port.type.accepts value = true) :
    (graph.modifyInput ref change).Sound admits excused := by
  have inputs (other : InputRef) : (graph.modifyInput ref change).input? other =
      (graph.input? other).map fun input => if other = ref then change input else input := by
    rw [input?_modifyInput]
    by_cases h : other = ref <;> simp [h]
  have wired : (graph.modifyInput ref change).Wired := by
    refine sound.wired.of_inputs inputs (output?_modifyInput graph ref · change) ?_ ?_
    · intro other input
      split
      · exact (same input).1
      · rfl
    · intro other input
      split
      · rw [(same input).2]
      · rfl
  have acyclic : (graph.modifyInput ref change).Acyclic := by
    refine sound.acyclic.of_inputs fun other input hi _ => ?_
    rw [inputs, Option.map_eq_some_iff] at hi
    obtain ⟨old, hold, rfl⟩ := hi
    refine ⟨old, hold, ?_⟩
    split
    · exact ⟨(same old).1.symm, by rw [(same old).2]; exact fun _ h => h⟩
    · exact ⟨rfl, fun _ h => h⟩
  exact sound.of_forms wired acyclic
    (sound.insets.modifyInput ref (fun input => (same input).1) accepted) rfl rfl rfl
    (form?_modifyInput (fun input => (same input).1) graph ref)

theorem Fits.push (node : Node) {form : Form} (fits : graph.Fits admits form) :
    (graph.push node).2.Fits admits form :=
  fits.congr (definedPorts_of_definitions rfl rfl form.kind)

theorem form?_push_of_some (node : Node) {id : NodeId} {form : Form}
    (h : graph.form? id = some form) : (graph.push node).2.form? id = some form := by
  rw [form?_push, if_neg, h]
  rintro rfl
  rw [form?_fresh] at h
  simp at h

theorem HasKind.push (node : Node) {id : NodeId} {kind : NodeKind} (has : graph.HasKind id kind) :
    (graph.push node).2.HasKind id kind := by
  obtain ⟨form, hf, hk⟩ := has
  exact ⟨form, form?_push_of_some node hf, hk⟩

/-- A new node with the ports of its type or definition. -/
theorem Sound.push (sound : graph.Sound admits excused) {kind : NodeKind} {config : Json}
    {ports : Ports} (position : Position) (fits : graph.Fits admits ⟨kind, config, ports⟩) :
    (graph.push (.ofPorts kind config ports position)).2.Sound admits excused where
  wired := by
    apply sound.wired.push <;> simp [Node.ofPorts]
  acyclic := by
    apply sound.acyclic.push
    simp [Node.ofPorts]
  insets := by
    apply sound.insets.push
    simp [Node.ofPorts]
  declared := sound.declared.congr rfl rfl rfl
  fits id form h := by
    rw [form?_push] at h
    split at h
    · rw [Node.form_ofPorts, Option.some.injEq] at h
      subst h
      exact .inr (fits.push _)
    · exact (sound.fits id form h).imp_right (Fits.push _)
  owned := {
    inputs := fun entry he id h => (sound.owned.inputs entry he id h).push _
    outputs := fun entry he id h => (sound.owned.outputs entry he id h).push _
    constructors := fun entry he id h => (sound.owned.constructors entry he id h).push _ }

/-- A node that no definition owns is taken out. -/
theorem Sound.detached (sound : graph.Sound admits excused) {id : NodeId}
    (free : graph.owns id = false) :
    ((graph.restrict (Keep.apart id)).clear id).Sound admits excused where
  wired := sound.wired.detached id
  acyclic := (sound.acyclic.restrict _).clear id
  insets := (sound.insets.restrict _).clear id
  declared := sound.declared.congr rfl rfl rfl
  fits other form h := by
    rw [form?_clear, form?_restrict] at h
    split at h
    · simp at h
    · exact (sound.fits other form h).imp_right fun fits =>
        fits.congr (definedPorts_of_definitions rfl rfl form.kind)
  owned := by
    refine sound.owned.of_forms rfl rfl fun other owned => ?_
    rw [form?_clear, form?_restrict, if_neg]
    rintro rfl
    rw [free] at owned
    simp at owned

theorem Sound.of_definitions {excused' : NodeKind → Prop} (sound : graph.Sound admits excused)
    (arena : next.arena = graph.arena) (declared : next.Declared)
    (fits : ∀ id form, graph.form? id = some form → graph.Fits admits form →
      excused' form.kind ∨ next.Fits admits form)
    (excuses : ∀ kind, excused kind → excused' kind) (owned : next.Owned) :
    next.Sound admits excused' := by
  obtain ⟨arena', functions, structs, nextDefinition⟩ := next
  subst arena
  refine ⟨⟨sound.wired.source, sound.wired.target, sound.wired.nodupSources,
    sound.wired.nodupTargets, sound.wired.oneSource, sound.wired.oneTarget⟩, sound.acyclic,
    sound.insets, declared, fun id form h => ?_, owned⟩
  rcases sound.fits id form h with excuse | fit
  · exact .inl (excuses _ excuse)
  · exact fits id form h fit

theorem mem_withFunction {signature : Signature} {entry : FunctionEntry} :
    entry ∈ (graph.withFunction signature).functions ↔
      entry ∈ graph.functions ∨ entry = { id := ⟨graph.nextDefinition⟩, signature } := by
  simp [withFunction]

theorem mem_withStruct {schema : Schema} {entry : StructEntry} :
    entry ∈ (graph.withStruct schema).structs ↔
      entry ∈ graph.structs ∨ entry = { id := ⟨graph.nextDefinition⟩, schema } := by
  simp [withStruct]

theorem Fits.of_lookups {form : Form} (fits : graph.Fits admits form)
    (functions : ∀ f signature, form.kind.function? = some f →
      graph.signature? f = some signature → next.signature? f = some signature)
    (structs : ∀ s schema, form.kind = .construct s →
      graph.schemaAt? s = some schema → next.schemaAt? s = some schema) :
    next.Fits admits form := by
  refine fits.congr (definedPorts_congr ?_ ?_)
  · intro f hf
    cases found : graph.signature? f with
    | some signature => exact functions f signature hf found
    | none =>
      have ports := definedPorts_of_function graph hf
      unfold Fits at fits
      cases hk : form.kind <;> simp [hk, NodeKind.function?] at hf ports fits <;>
        simp [ports, found] at fits
  · intro s hs
    cases found : graph.schemaAt? s with
    | some schema => exact structs s schema hs found
    | none =>
      unfold Fits at fits
      simp [hs, definedPorts_construct, found] at fits

theorem Sound.withFunction (sound : graph.Sound admits excused) {signature : Signature}
    (fresh : graph.functionNamed? signature.name = none) :
    (graph.withFunction signature).Sound admits excused := by
  have declared := sound.declared.withFunction fresh
  refine sound.of_definitions rfl declared ?_ (fun _ h => h) ?_
  · refine fun id form _ fits => .inr (fits.of_lookups (fun f signature _ h => ?_) fun _ _ _ h => h)
    obtain ⟨entry, he, rfl, rfl⟩ := sound.declared.signature?_eq_some_iff.1 h
    exact declared.signature?_eq_some_iff.2 ⟨entry, mem_withFunction.2 (.inl he), rfl, rfl⟩
  · constructor
    · intro entry he id h
      rcases mem_withFunction.1 he with he | rfl
      · exact sound.owned.inputs entry he id h
      · simp at h
    · intro entry he id h
      rcases mem_withFunction.1 he with he | rfl
      · exact sound.owned.outputs entry he id h
      · simp at h
    · exact sound.owned.constructors

theorem Sound.withStruct (sound : graph.Sound admits excused) {schema : Schema}
    (fresh : graph.structNamed? schema.name = none) :
    (graph.withStruct schema).Sound admits excused := by
  have declared := sound.declared.withStruct fresh
  refine sound.of_definitions rfl declared ?_ (fun _ h => h) ?_
  · refine fun id form _ fits => .inr (fits.of_lookups (fun _ _ _ h => h) fun s schema _ h => ?_)
    obtain ⟨entry, he, rfl, rfl⟩ := sound.declared.schemaAt?_eq_some_iff.1 h
    exact declared.schemaAt?_eq_some_iff.2 ⟨entry, mem_withStruct.2 (.inl he), rfl, rfl⟩
  · constructor
    · exact sound.owned.inputs
    · exact sound.owned.outputs
    · intro entry he id h
      rcases mem_withStruct.1 he with he | rfl
      · exact sound.owned.constructors entry he id h
      · simp at h

private theorem owned_modify {ε ι : Type} [DecidableEq ι] {entries : List ε} (key : ε → ι)
    (owns : ε → Option NodeId) (kind : ι → NodeKind) {change : ε → ε} {i : ι}
    (same : ∀ entry, key (change entry) = key entry)
    (owned : ∀ entry ∈ entries, ∀ node, owns entry = some node →
      graph.HasKind node (kind (key entry)))
    (given : ∀ entry ∈ entries, key entry = i → ∀ node, owns (change entry) = some node →
      owns entry = some node ∨ graph.HasKind node (kind i)) :
    ∀ entry ∈ entries.map fun entry => if key entry = i then change entry else entry,
      ∀ node, owns entry = some node → graph.HasKind node (kind (key entry)) := by
  intro entry mem node h
  obtain ⟨old, hold, rfl⟩ := List.mem_map.1 mem
  by_cases here : key old = i
  · simp only [here, if_true] at h ⊢
    rw [same old]
    rcases given old hold here node h with before | now
    · exact owned old hold node before
    · subst here
      exact now
  · simp only [here, if_false] at h ⊢
    exact owned old hold node h

/-- Gives a function the nodes that it owns. -/
theorem Sound.modifyFunction (sound : graph.Sound admits excused) (id : FunctionId)
    (change : FunctionEntry → FunctionEntry)
    (same : ∀ entry, (change entry).id = entry.id ∧ (change entry).signature = entry.signature)
    (inputs : ∀ entry ∈ graph.functions, entry.id = id → ∀ node, (change entry).input = some node →
      entry.input = some node ∨ graph.HasKind node (.functionInput id))
    (outputs : ∀ entry ∈ graph.functions, entry.id = id → ∀ node,
      (change entry).output = some node →
      entry.output = some node ∨ graph.HasKind node (.functionOutput id)) :
    (graph.modifyFunction id change).Sound admits excused := by
  have declared := sound.declared.modifyFunction id same
  refine sound.of_definitions rfl declared ?_ (fun _ h => h) ⟨?_, ?_, sound.owned.constructors⟩
  · refine fun _ form _ fits => .inr (fits.of_lookups (fun f signature _ h => ?_) fun _ _ _ h => h)
    obtain ⟨entry, he, rfl, rfl⟩ := sound.declared.signature?_eq_some_iff.1 h
    refine declared.signature?_eq_some_iff.2 ⟨_, List.mem_map_of_mem he, ?_⟩
    split
    · exact same entry
    · exact ⟨rfl, rfl⟩
  · exact owned_modify FunctionEntry.id FunctionEntry.input NodeKind.functionInput
      (fun entry => (same entry).1) sound.owned.inputs inputs
  · exact owned_modify FunctionEntry.id FunctionEntry.output NodeKind.functionOutput
      (fun entry => (same entry).1) sound.owned.outputs outputs

/-- Gives a struct the constructor that it owns. -/
theorem Sound.modifyStruct (sound : graph.Sound admits excused) (id : StructId)
    (change : StructEntry → StructEntry)
    (same : ∀ entry, (change entry).id = entry.id ∧ (change entry).schema = entry.schema)
    (constructors : ∀ entry ∈ graph.structs, entry.id = id → ∀ node,
      (change entry).boundary = some node →
      entry.boundary = some node ∨ graph.HasKind node (.construct id)) :
    (graph.modifyStruct id change).Sound admits excused := by
  have declared := sound.declared.modifyStruct id same
  refine sound.of_definitions rfl declared ?_ (fun _ h => h)
    ⟨sound.owned.inputs, sound.owned.outputs, ?_⟩
  · refine fun _ form _ fits => .inr (fits.of_lookups (fun _ _ _ h => h) fun s schema _ h => ?_)
    obtain ⟨entry, he, rfl, rfl⟩ := sound.declared.schemaAt?_eq_some_iff.1 h
    refine declared.schemaAt?_eq_some_iff.2 ⟨_, List.mem_map_of_mem he, ?_⟩
    split
    · exact same entry
    · exact ⟨rfl, rfl⟩
  · exact owned_modify StructEntry.id StructEntry.boundary NodeKind.construct
      (fun entry => (same entry).1) sound.owned.constructors constructors

/-- The nodes of a function, which lack their definition once it has another address. -/
def BoundTo (id : FunctionId) (kind : NodeKind) : Prop := kind.function? = some id

theorem mem_redeclareFunction {previous : FunctionId} {signature : Signature}
    {entry : FunctionEntry} (he : entry ∈ (graph.redeclareFunction previous signature).functions) :
    entry = { id := ⟨graph.nextDefinition⟩, signature } ∨
      entry ∈ graph.functions ∧ entry.id ≠ previous := by
  obtain ⟨old, hold, rfl⟩ := List.mem_map.1 he
  by_cases h : old.id = previous <;> simp [h, hold]

theorem mem_redeclareStruct {previous : StructId} {schema : Schema}
    {entry : StructEntry} (he : entry ∈ (graph.redeclareStruct previous schema).structs) :
    entry = { id := ⟨graph.nextDefinition⟩, schema } ∨
      entry ∈ graph.structs ∧ entry.id ≠ previous := by
  obtain ⟨old, hold, rfl⟩ := List.mem_map.1 he
  by_cases h : old.id = previous <;> simp [h, hold]

theorem Sound.redeclareFunction (sound : graph.Sound admits fun _ => False)
    {previous : FunctionId} {signature : Signature}
    (fresh : ∀ entry ∈ graph.functions, entry.id ≠ previous →
      entry.signature.name ≠ signature.name) :
    (graph.redeclareFunction previous signature).Sound admits (BoundTo previous) := by
  have declared := sound.declared.redeclareFunction fresh
  refine sound.of_definitions rfl declared ?_ (fun _ h => h.elim) ⟨?_, ?_, sound.owned.constructors⟩
  · intro id form _ fits
    by_cases bound : form.kind.function? = some previous
    · exact .inl bound
    refine .inr (fits.of_lookups (fun f signature hf h => ?_) fun _ _ _ h => h)
    obtain ⟨entry, he, rfl, rfl⟩ := sound.declared.signature?_eq_some_iff.1 h
    have apart : entry.id ≠ previous := by
      intro same
      subst same
      exact bound hf
    refine declared.signature?_eq_some_iff.2 ⟨_, List.mem_map_of_mem he, ?_⟩
    rw [if_neg apart]
    exact ⟨rfl, rfl⟩
  · intro entry he id h
    rcases mem_redeclareFunction he with rfl | ⟨he, -⟩
    · simp at h
    · exact sound.owned.inputs entry he id h
  · intro entry he id h
    rcases mem_redeclareFunction he with rfl | ⟨he, -⟩
    · simp at h
    · exact sound.owned.outputs entry he id h

theorem Sound.redeclareStruct (sound : graph.Sound admits fun _ => False)
    {previous : StructId} {schema : Schema}
    (fresh : ∀ entry ∈ graph.structs, entry.id ≠ previous → entry.schema.name ≠ schema.name) :
    (graph.redeclareStruct previous schema).Sound admits (· = .construct previous) := by
  have declared := sound.declared.redeclareStruct fresh
  refine sound.of_definitions rfl declared ?_ (fun _ h => h.elim)
    ⟨sound.owned.inputs, sound.owned.outputs, ?_⟩
  · intro id form _ fits
    by_cases bound : form.kind = .construct previous
    · exact .inl bound
    refine .inr (fits.of_lookups (fun _ _ _ h => h) fun s schema hs h => ?_)
    obtain ⟨entry, he, rfl, rfl⟩ := sound.declared.schemaAt?_eq_some_iff.1 h
    have apart : entry.id ≠ previous := by
      intro same
      subst same
      exact bound hs
    refine declared.schemaAt?_eq_some_iff.2 ⟨_, List.mem_map_of_mem he, ?_⟩
    rw [if_neg apart]
    exact ⟨rfl, rfl⟩
  · intro entry he id h
    rcases mem_redeclareStruct he with rfl | ⟨he, -⟩
    · simp at h
    · exact sound.owned.constructors entry he id h

theorem mem_withoutFunction {id : FunctionId} {entry : FunctionEntry} :
    entry ∈ (graph.withoutFunction id).functions ↔ entry ∈ graph.functions ∧ entry.id ≠ id := by
  simp [withoutFunction]

theorem mem_withoutStruct {id : StructId} {entry : StructEntry} :
    entry ∈ (graph.withoutStruct id).structs ↔ entry ∈ graph.structs ∧ entry.id ≠ id := by
  simp [withoutStruct]

theorem Sound.withoutFunction (sound : graph.Sound admits fun _ => False) (id : FunctionId) :
    (graph.withoutFunction id).Sound admits (BoundTo id) := by
  have declared := sound.declared.withoutFunction id
  refine sound.of_definitions rfl declared ?_ (fun _ h => h.elim) ⟨?_, ?_, sound.owned.constructors⟩
  · intro _ form _ fits
    by_cases bound : form.kind.function? = some id
    · exact .inl bound
    refine .inr (fits.of_lookups (fun f signature hf h => ?_) fun _ _ _ h => h)
    obtain ⟨entry, he, rfl, rfl⟩ := sound.declared.signature?_eq_some_iff.1 h
    refine declared.signature?_eq_some_iff.2 ⟨entry, mem_withoutFunction.2 ⟨he, ?_⟩, rfl, rfl⟩
    rintro rfl
    exact bound hf
  · intro entry he
    exact sound.owned.inputs entry (mem_withoutFunction.1 he).1
  · intro entry he
    exact sound.owned.outputs entry (mem_withoutFunction.1 he).1

theorem Sound.withoutStruct (sound : graph.Sound admits fun _ => False) (id : StructId) :
    (graph.withoutStruct id).Sound admits (· = .construct id) := by
  have declared := sound.declared.withoutStruct id
  refine sound.of_definitions rfl declared ?_ (fun _ h => h.elim)
    ⟨sound.owned.inputs, sound.owned.outputs, ?_⟩
  · intro _ form _ fits
    by_cases bound : form.kind = .construct id
    · exact .inl bound
    refine .inr (fits.of_lookups (fun _ _ _ h => h) fun s schema hs h => ?_)
    obtain ⟨entry, he, rfl, rfl⟩ := sound.declared.schemaAt?_eq_some_iff.1 h
    refine declared.schemaAt?_eq_some_iff.2 ⟨entry, mem_withoutStruct.2 ⟨he, ?_⟩, rfl, rfl⟩
    rintro rfl
    exact bound hs
  · intro entry he
    exact sound.owned.constructors entry (mem_withoutStruct.1 he).1

theorem Sound.structs_perm (sound : graph.Sound admits excused) {structs : List StructEntry}
    (perm : structs.Perm graph.structs) :
    ({ graph with structs } : Graph).Sound admits excused := by
  have declared := sound.declared.structs_perm perm
  refine sound.of_definitions rfl declared ?_ (fun _ h => h) ⟨sound.owned.inputs,
    sound.owned.outputs, fun entry he => sound.owned.constructors entry (perm.mem_iff.1 he)⟩
  refine fun _ form _ fits => .inr (fits.of_lookups (fun _ _ _ h => h) fun s schema _ h => ?_)
  obtain ⟨entry, he, rfl, rfl⟩ := sound.declared.schemaAt?_eq_some_iff.1 h
  exact declared.schemaAt?_eq_some_iff.2 ⟨entry, perm.mem_iff.2 he, rfl, rfl⟩

end NodeScript.Graph
