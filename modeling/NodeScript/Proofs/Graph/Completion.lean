import NodeScript.Proofs.Accepted
import NodeScript.Proofs.Graph.Sound
import NodeScript.Proofs.Graph.Still

/-!
New nodes for definitions. Main statements: definitions that lack nodes are given them
(`Sound.completeDefinitions`), which is never refused and adds no node where there is one of each
kind that is asked for (`completeDefinitions_isOk`).
-/

set_option autoImplicit false
set_option relaxedAutoImplicit false

namespace NodeScript.Graph

variable {admits : Admits} {excused : NodeKind → Prop} {graph next : Graph} {id : NodeId}

theorem addDefined_eq_ok_iff {kind : NodeKind} {position : Position} {id : NodeId} :
    graph.addDefined kind position = .ok (id, next) ↔
      ∃ ports, graph.definedPorts kind = .ok ports ∧ id = ⟨graph.arena.size⟩ ∧
        next = (graph.push (.ofPorts kind .null ports position)).2 := by
  unfold addDefined
  rw [Accepted.bind_iff]
  simp only [pure, Except.pure, Except.ok.injEq, push, Prod.mk.injEq, eq_comm]

theorem fits_of_definedPorts {kind : NodeKind} {ports : Ports}
    (h : graph.definedPorts kind = .ok ports) : graph.Fits admits ⟨kind, .null, ports⟩ := by
  cases kind <;> first | exact ⟨h, rfl⟩ | simp [definedPorts] at h

theorem Sound.addDefined (sound : graph.Sound admits excused) {kind : NodeKind}
    {position : Position} {id : NodeId} (added : graph.addDefined kind position = .ok (id, next)) :
    next.Sound admits excused ∧ next.HasKind id kind := by
  obtain ⟨ports, hports, rfl, rfl⟩ := addDefined_eq_ok_iff.1 added
  refine ⟨sound.push position (fits_of_definedPorts hports), ⟨kind, .null, ports⟩, ?_, rfl⟩
  rw [form?_push, if_pos rfl, Node.form_ofPorts]

theorem Sound.firstOrNew (sound : graph.Sound admits excused) {kind : NodeKind}
    (found : graph.firstOrNew kind = .ok (id, next)) :
    next.Sound admits excused ∧ next.HasKind id kind ∧
      next.functions = graph.functions ∧ next.structs = graph.structs := by
  unfold Graph.firstOrNew at found
  split at found
  · rename_i index hindex
    simp only [Except.ok.injEq, Prod.mk.injEq] at found
    obtain ⟨rfl, rfl⟩ := found
    refine ⟨sound, hasKind_iff.2 ?_, rfl, rfl⟩
    obtain ⟨inside, hkind, -⟩ := Array.findIdx?_eq_some_iff_getElem.1 hindex
    cases hplace : graph.arena[index] with
    | none => simp [hplace] at hkind
    | some node =>
      refine ⟨node, ?_, by simpa [hplace] using hkind⟩
      simp [node?, Array.getElem?_eq_getElem inside, hplace]
  · obtain ⟨sound', has⟩ := sound.addDefined found
    obtain ⟨ports, -, -, rfl⟩ := addDefined_eq_ok_iff.1 found
    exact ⟨sound', has, rfl, rfl⟩

private def FilledFrom (f : FunctionId) (lacks : Bool)
    (give : NodeId → FunctionEntry → FunctionEntry)
    (before : List FunctionEntry) (entry : FunctionEntry) : Prop :=
  (entry ∈ before ∧ (entry.id = f → lacks = false)) ∨
    ∃ old ∈ before, old.id = f ∧ ∃ node, entry = give node old

private theorem Sound.fillFunction (sound : graph.Sound admits excused) {f : FunctionId}
    {lacks : Bool} {kind : NodeKind} {give : NodeId → FunctionEntry → FunctionEntry}
    (accepted : graph.fillFunction f lacks kind give = .ok next)
    (same : ∀ node entry, (give node entry).id = entry.id ∧
      (give node entry).signature = entry.signature)
    (inputs : ∀ node entry, (give node entry).input = entry.input ∨
      ((give node entry).input = some node ∧ kind = .functionInput f))
    (outputs : ∀ node entry, (give node entry).output = entry.output ∨
      ((give node entry).output = some node ∧ kind = .functionOutput f)) :
    next.Sound admits excused ∧ next.structs = graph.structs ∧
      ∀ entry ∈ next.functions, FilledFrom f lacks give graph.functions entry := by
  unfold Graph.fillFunction at accepted
  split at accepted
  · rename_i hlacks
    obtain ⟨⟨id, middle⟩, found, filled⟩ := Accepted.bind_iff.1 accepted
    simp only [pure, Except.pure, Except.ok.injEq] at filled
    subst filled
    obtain ⟨sound', has, functions, structs⟩ := sound.firstOrNew found
    refine ⟨sound'.modifyFunction f _ (same id) ?_ ?_, structs, ?_⟩
    · intro entry _ _ node h
      rcases inputs id entry with before | ⟨now, rfl⟩
      · rw [← before]
        exact .inl h
      · rw [now, Option.some.injEq] at h
        subst h
        exact .inr has
    · intro entry _ _ node h
      rcases outputs id entry with before | ⟨now, rfl⟩
      · rw [← before]
        exact .inl h
      · rw [now, Option.some.injEq] at h
        subst h
        exact .inr has
    · intro entry he
      obtain ⟨old, hold, rfl⟩ := List.mem_map.1 he
      rw [functions] at hold
      split
      · rename_i hid
        exact .inr ⟨old, hold, hid, id, rfl⟩
      · rename_i hid
        exact .inl ⟨hold, fun h => absurd h hid⟩
  · rename_i hlacks
    simp only [Except.ok.injEq] at accepted
    subst accepted
    exact ⟨sound, rfl, fun entry he => .inl ⟨he, fun _ => by simpa using hlacks⟩⟩

def FunctionsFilled (f : FunctionId) (before after : List FunctionEntry) : Prop :=
  ∀ entry ∈ after, (entry.id = f → entry.input.isSome ∧ entry.output.isSome) ∧
    ∃ old ∈ before, old.id = entry.id ∧ (old.input.isSome → entry.input.isSome) ∧
      (old.output.isSome → entry.output.isSome)

theorem Sound.completeFunction (sound : graph.Sound admits excused) {f : FunctionId}
    (accepted : graph.completeFunction f = .ok next) :
    next.Sound admits excused ∧ next.structs = graph.structs ∧
      FunctionsFilled f graph.functions next.functions := by
  unfold Graph.completeFunction at accepted
  split at accepted
  · rename_i none
    simp only [Except.ok.injEq] at accepted
    subst accepted
    refine ⟨sound, rfl, fun entry he => ⟨fun same => ?_, entry, he, rfl, id, id⟩⟩
    exact absurd (List.find?_eq_none.1 none entry he) (by simp [same])
  · rename_i found hfound
    have only {other : FunctionEntry} (ho : other ∈ graph.functions) (same : other.id = f) :
        other = found := by
      have again := sound.declared.function?_iff.2 ⟨ho, same⟩
      rw [hfound, Option.some.injEq] at again
      exact again.symm
    obtain ⟨middle, first, second⟩ := Accepted.bind_iff.1 accepted
    obtain ⟨sound', structs', from'⟩ := sound.fillFunction first (fun _ _ => ⟨rfl, rfl⟩)
      (fun _ _ => .inr ⟨rfl, rfl⟩) (fun _ _ => .inl rfl)
    obtain ⟨sound'', structs'', from''⟩ := sound'.fillFunction second (fun _ _ => ⟨rfl, rfl⟩)
      (fun _ _ => .inl rfl) (fun _ _ => .inr ⟨rfl, rfl⟩)
    refine ⟨sound'', structs''.trans structs', fun entry he => ?_⟩
    rcases from'' entry he with ⟨he', hasOutput⟩ | ⟨old', hold', hid', node', rfl⟩
    · rcases from' entry he' with ⟨he, hasInput⟩ | ⟨old, hold, hid, node, rfl⟩
      · refine ⟨fun same => ?_, entry, he, rfl, id, id⟩
        have this := only he same
        subst this
        simp_all
      · refine ⟨fun same => ?_, old, hold, rfl, fun _ => rfl, id⟩
        have this := only hold hid
        subst this
        simp_all
    · rcases from' old' hold' with ⟨hold, hasInput⟩ | ⟨old, hold, hid, node, rfl⟩
      · refine ⟨fun same => ?_, old', hold, rfl, id, fun _ => rfl⟩
        have this := only hold hid'
        subst this
        simp_all
      · exact ⟨fun _ => ⟨rfl, rfl⟩, old, hold, rfl, fun _ => rfl, fun _ => rfl⟩

theorem Sound.completeStruct (sound : graph.Sound admits excused) {s : StructId}
    (accepted : graph.completeStruct s = .ok next) :
    next.Sound admits excused ∧ next.functions = graph.functions ∧
      ∀ entry ∈ next.structs, (entry.id = s → entry.boundary.isSome) ∧
        ∃ old ∈ graph.structs, old.id = entry.id ∧
          (old.boundary.isSome → entry.boundary.isSome) := by
  unfold Graph.completeStruct at accepted
  split at accepted
  · rename_i none
    simp only [Except.ok.injEq] at accepted
    subst accepted
    refine ⟨sound, rfl, fun entry he => ⟨fun same => ?_, entry, he, rfl, id⟩⟩
    exact absurd (List.find?_eq_none.1 none entry he) (by simp [same])
  rename_i found hfound
  split at accepted
  · rename_i some
    simp only [Except.ok.injEq] at accepted
    subst accepted
    refine ⟨sound, rfl, fun entry he => ⟨fun same => ?_, entry, he, rfl, id⟩⟩
    have again := sound.declared.struct?_iff.2 ⟨he, same⟩
    rw [hfound, Option.some.injEq] at again
    subst again
    exact some
  · obtain ⟨⟨node, middle⟩, first, second⟩ := Accepted.bind_iff.1 accepted
    simp only [pure, Except.pure, Except.ok.injEq] at second
    subst second
    obtain ⟨sound', has, functions, structs⟩ := sound.firstOrNew first
    refine ⟨?_, functions, fun entry he => ?_⟩
    · refine sound'.modifyStruct s _ (fun _ => ⟨rfl, rfl⟩) fun entry _ _ other h => ?_
      simp only [Option.some.injEq] at h
      subst h
      exact .inr has
    · obtain ⟨old, hold, rfl⟩ := List.mem_map.1 he
      rw [structs] at hold
      split
      · exact ⟨fun _ => rfl, old, hold, rfl, fun _ => rfl⟩
      · rename_i hid
        exact ⟨fun same => absurd same hid, old, hold, rfl, id⟩

/-- Every definition has its nodes in the end. -/
theorem Sound.completeDefinitions (sound : graph.Sound admits fun _ => False)
    (accepted : graph.completeDefinitions = .ok next) : next.WellFormed admits := by
  obtain ⟨middle, first, second⟩ := Accepted.bind_iff.1 accepted
  have functions := Accepted.foldlM (fun rest (graph : Graph) =>
      graph.Sound admits (fun _ => False) ∧
        ∀ entry ∈ graph.functions, entry.id ∈ rest ∨ entry.input.isSome ∧ entry.output.isSome)
    (fun f rest graph next ⟨sound, done⟩ accepted => by
      obtain ⟨sound', -, filled⟩ := sound.completeFunction accepted
      refine ⟨sound', fun entry he => ?_⟩
      obtain ⟨here, old, hold, hid, input, output⟩ := filled entry he
      by_cases same : entry.id = f
      · exact .inr (here same)
      · rcases done old hold with listed | ⟨hasInput, hasOutput⟩
        · rw [hid] at listed
          exact .inl ((List.mem_cons.1 listed).resolve_left same)
        · exact .inr ⟨input hasInput, output hasOutput⟩)
    ⟨sound, fun entry he => .inl (List.mem_map_of_mem he)⟩ first
  have structs := Accepted.foldlM (fun rest (graph : Graph) =>
      graph.Sound admits (fun _ => False) ∧
        (∀ entry ∈ graph.functions, entry.input.isSome ∧ entry.output.isSome) ∧
        ∀ entry ∈ graph.structs, entry.id ∈ rest ∨ entry.boundary.isSome)
    (fun s rest graph next ⟨sound, functions, done⟩ accepted => by
      obtain ⟨sound', same, filled⟩ := sound.completeStruct accepted
      rw [← same] at functions
      refine ⟨sound', functions, fun entry he => ?_⟩
      obtain ⟨here, old, hold, hid, boundary⟩ := filled entry he
      by_cases same : entry.id = s
      · exact .inr (here same)
      · rcases done old hold with listed | hasBoundary
        · rw [hid] at listed
          exact .inl ((List.mem_cons.1 listed).resolve_left same)
        · exact .inr (boundary hasBoundary))
    ⟨functions.1, fun entry he => (functions.2 entry he).resolve_left (by simp),
      fun entry he => .inl (List.mem_map_of_mem he)⟩ second
  obtain ⟨sound', functions', structs'⟩ := structs
  exact { sound' with
    complete := {
      inputs := fun entry he => (functions' entry he).1
      outputs := fun entry he => (functions' entry he).2
      constructors := fun entry he => (structs' entry he).resolve_left (by simp) } }

/-- The definitions have the addresses and the declarations that they had, whatever nodes they own,
and there are no new nodes of registered types. -/
structure Upkeep (graph next : Graph) : Prop where
  functions : next.functions.map (fun entry => (entry.id, entry.signature)) =
    graph.functions.map fun entry => (entry.id, entry.signature)
  structs : next.structs.map (fun entry => (entry.id, entry.schema)) =
    graph.structs.map fun entry => (entry.id, entry.schema)
  builtins : ∀ id form type, next.form? id = some form → form.kind = .builtin type →
    graph.form? id = some form

theorem Upkeep.refl (graph : Graph) : graph.Upkeep graph := by
  refine ⟨rfl, rfl, ?_⟩
  intro _ _ _ h _
  exact h

theorem Upkeep.trans {last : Graph} (first : graph.Upkeep next) (second : next.Upkeep last) :
    graph.Upkeep last where
  functions := second.functions.trans first.functions
  structs := second.structs.trans first.structs
  builtins id form type h kind :=
    first.builtins id form type (second.builtins id form type h kind) kind

theorem Upkeep.modifyFunction (graph : Graph) (f : FunctionId)
    {change : FunctionEntry → FunctionEntry}
    (same : ∀ entry, (change entry).id = entry.id ∧ (change entry).signature = entry.signature) :
    graph.Upkeep (graph.modifyFunction f change) where
  functions := map_modifyFunction (fun entry => by rw [(same entry).1, (same entry).2]) f
  structs := rfl
  builtins _ _ _ h _ := h

theorem Upkeep.modifyStruct (graph : Graph) (s : StructId) {change : StructEntry → StructEntry}
    (same : ∀ entry, (change entry).id = entry.id ∧ (change entry).schema = entry.schema) :
    graph.Upkeep (graph.modifyStruct s change) where
  functions := rfl
  structs := map_modifyStruct (fun entry => by rw [(same entry).1, (same entry).2]) s
  builtins _ _ _ h _ := h

theorem Upkeep.addDefined {kind : NodeKind} {position : Position}
    (added : graph.addDefined kind position = .ok (id, next)) : graph.Upkeep next := by
  obtain ⟨ports, defined, -, rfl⟩ := addDefined_eq_ok_iff.1 added
  refine ⟨rfl, rfl, fun other form type h builtin => ?_⟩
  rw [form?_push] at h
  split at h
  · obtain rfl := Option.some.inj h
    obtain rfl : kind = .builtin type := builtin
    simp [definedPorts] at defined
  · exact h

theorem Still.upkeep (still : graph.Still next) : graph.Upkeep next := by
  refine ⟨?_, ?_, ?_⟩
  · rw [still.functions]
  · rw [still.structs]
  · intro id form _ h _
    rwa [still.forms] at h

/-- What each step of a fold leaves as it is the fold does. -/
theorem Upkeep.foldl {α : Type} {step : Graph → α → Graph}
    (each : ∀ (graph : Graph) (a : α), graph.Upkeep (step graph a)) (items : List α)
    (graph : Graph) :
    graph.Upkeep (items.foldl step graph) := by
  induction items generalizing graph with
  | nil => exact .refl graph
  | cons a items ih => exact (each graph a).trans (ih (step graph a))

theorem Upkeep.foldlM {α : Type} {step : Graph → α → Except GraphError Graph}
    (each : ∀ (graph : Graph) (a : α) (next : Graph), step graph a = .ok next → graph.Upkeep next)
    {items : List α} (accepted : items.foldlM step graph = .ok next) : graph.Upkeep next := by
  refine Accepted.foldlM (fun _ state => graph.Upkeep state) ?_ (.refl graph) accepted
  intro a _ state next up accepted
  exact up.trans (each state a next accepted)

theorem Upkeep.clear (graph : Graph) (id : NodeId) : graph.Upkeep (graph.clear id) where
  functions := rfl
  structs := rfl
  builtins other form _ h _ := by
    rw [form?_clear] at h
    split at h
    · simp at h
    · exact h

theorem Upkeep.detach? {node : Node} (detached : graph.detach? id = some (node, next)) :
    graph.Upkeep next := by
  exact (Upkeep.clear graph id).trans (Still.detach? detached).upkeep

theorem Upkeep.detach (graph : Graph) (id : NodeId) : graph.Upkeep (graph.detach id) := by
  unfold Graph.detach
  split
  · exact .detach? ‹_›
  · exact .refl graph

theorem Upkeep.schemas (same : graph.Upkeep next) : next.schemas = graph.schemas := by
  have second := congrArg (List.map Prod.snd) same.structs
  rwa [List.map_map, List.map_map] at second

theorem Upkeep.function_mem (same : graph.Upkeep next) {entry : FunctionEntry}
    (member : entry ∈ next.functions) :
    ∃ old ∈ graph.functions, old.id = entry.id ∧ old.signature = entry.signature := by
  have listed := List.mem_map_of_mem (f := fun entry => (entry.id, entry.signature)) member
  rw [same.functions] at listed
  obtain ⟨old, mem, equal⟩ := List.mem_map.1 listed
  exact ⟨old, mem, congrArg Prod.fst equal, congrArg Prod.snd equal⟩

theorem Upkeep.struct_mem (same : graph.Upkeep next) {entry : StructEntry}
    (member : entry ∈ next.structs) :
    ∃ old ∈ graph.structs, old.id = entry.id ∧ old.schema = entry.schema := by
  have listed := List.mem_map_of_mem (f := fun entry => (entry.id, entry.schema)) member
  rw [same.structs] at listed
  obtain ⟨old, mem, equal⟩ := List.mem_map.1 listed
  exact ⟨old, mem, congrArg Prod.fst equal, congrArg Prod.snd equal⟩

theorem Upkeep.signature? (same : graph.Upkeep next) (f : FunctionId) :
    next.signature? f = graph.signature? f := by
  have lookup (graph : Graph) : graph.signature? f =
      ((graph.functions.map fun entry => (entry.id, entry.signature)).find? (·.1 == f)).map
        (·.2) := by
    rw [List.find?_map, Option.map_map]
    rfl
  rw [lookup, lookup, same.functions]

theorem Upkeep.schemaAt? (same : graph.Upkeep next) (s : StructId) :
    next.schemaAt? s = graph.schemaAt? s := by
  have lookup (graph : Graph) : graph.schemaAt? s =
      ((graph.structs.map fun entry => (entry.id, entry.schema)).find? (·.1 == s)).map
        (·.2) := by
    rw [List.find?_map, Option.map_map]
    rfl
  rw [lookup, lookup, same.structs]

def Present (graph : Graph) (kind : NodeKind) : Prop := ∃ id, graph.HasKind id kind

theorem firstOrNew_isOk {kind : NodeKind} {ports : Ports}
    (defined : graph.definedPorts kind = .ok ports) : ∃ node next,
      graph.firstOrNew kind = .ok (node, next) ∧ graph.Upkeep next ∧
        (graph.Present kind → next.arena = graph.arena) := by
  unfold firstOrNew
  split
  · exact ⟨_, graph, rfl, .refl graph, fun _ => rfl⟩
  · rename_i absent
    obtain ⟨fresh, added⟩ : ∃ fresh, graph.addDefined kind .zero = .ok fresh :=
      ⟨_, addDefined_eq_ok_iff.2 ⟨ports, defined, rfl, rfl⟩⟩
    refine ⟨fresh.1, fresh.2, added, .addDefined added, fun ⟨id, has⟩ => ?_⟩
    obtain ⟨node, hn, hk⟩ := hasKind_iff.1 has
    have place : some node ∈ graph.arena := Array.mem_of_getElem? (Option.join_eq_some_iff.1 hn)
    simpa [hk] using Array.findIdx?_eq_none_iff.1 absent (some node) place

theorem Present.of_arena {kind : NodeKind} (present : graph.Present kind)
    (arena : next.arena = graph.arena) : next.Present kind := by
  obtain ⟨id, form, hf, hk⟩ := present
  refine ⟨id, form, ?_, hk⟩
  rw [form?, node?, arena]
  exact hf

private theorem fillFunction_isOk {f : FunctionId} (lacks : Bool) {kind : NodeKind}
    (give : NodeId → FunctionEntry → FunctionEntry) (of : kind.function? = some f)
    (found : (graph.signature? f).isSome)
    (same : ∀ node entry, (give node entry).id = entry.id ∧
      (give node entry).signature = entry.signature) :
    ∃ next, graph.fillFunction f lacks kind give = .ok next ∧ graph.Upkeep next ∧
      (graph.Present kind → next.arena = graph.arena) := by
  obtain ⟨signature, found⟩ := Option.isSome_iff_exists.1 found
  have defined : graph.definedPorts kind = .ok (kind.portsOf signature) := by
    rw [definedPorts_of_function graph of, found]
  unfold fillFunction
  split
  · obtain ⟨node, middle, first, entries, arena⟩ := firstOrNew_isOk defined
    exact ⟨middle.modifyFunction f (give node), Accepted.bind_iff.2 ⟨_, first, rfl⟩,
      entries.trans (.modifyFunction middle f (same node)), arena⟩
  · exact ⟨graph, rfl, .refl graph, fun _ => rfl⟩

theorem completeFunction_isOk (graph : Graph) (f : FunctionId) : ∃ next,
    graph.completeFunction f = .ok next ∧ graph.Upkeep next ∧
      (graph.Present (.functionInput f) → graph.Present (.functionOutput f) →
        next.arena = graph.arena) := by
  unfold completeFunction
  cases found : graph.function? f with
  | none => exact ⟨graph, rfl, .refl graph, fun _ _ => rfl⟩
  | some entry =>
    have known : (graph.signature? f).isSome := by
      rw [signature?, found]
      rfl
    obtain ⟨middle, first, entries, arena⟩ := fillFunction_isOk entry.input.isNone
      (fun node entry => { entry with input := some node })
      (rfl : (NodeKind.functionInput f).function? = some f) known fun _ _ => ⟨rfl, rfl⟩
    rw [← entries.signature? f] at known
    obtain ⟨last, second, entries', arena'⟩ := fillFunction_isOk entry.output.isNone
      (fun node entry => { entry with output := some node })
      (rfl : (NodeKind.functionOutput f).function? = some f)
      known fun _ _ => ⟨rfl, rfl⟩
    refine ⟨last, Accepted.bind_iff.2 ⟨middle, first, second⟩, entries.trans entries', ?_⟩
    intro input output
    rw [arena' (output.of_arena (arena input)), arena input]

theorem completeStruct_isOk (graph : Graph) (s : StructId) : ∃ next,
    graph.completeStruct s = .ok next ∧ graph.Upkeep next ∧
      (graph.Present (.construct s) → next.arena = graph.arena) := by
  unfold completeStruct
  cases found : graph.struct? s with
  | none => exact ⟨graph, rfl, .refl graph, fun _ => rfl⟩
  | some entry =>
    dsimp only
    split
    · exact ⟨graph, rfl, .refl graph, fun _ => rfl⟩
    · have defined : graph.definedPorts (.construct s) = .ok entry.schema.ports := by
        rw [definedPorts_construct, schemaAt?, found]
        rfl
      obtain ⟨node, middle, first, entries, arena⟩ := firstOrNew_isOk defined
      exact ⟨middle.modifyStruct s fun entry => { entry with boundary := some node },
        Accepted.bind_iff.2 ⟨_, first, rfl⟩,
        entries.trans (.modifyStruct middle s fun _ => ⟨rfl, rfl⟩), arena⟩

private theorem foldlM_isOk {ι : Type} (step : Graph → ι → Except GraphError Graph)
    (present : Graph → ι → Prop)
    (each : ∀ graph a, ∃ next, step graph a = .ok next ∧ graph.Upkeep next ∧
      (present graph a → next.arena = graph.arena))
    (stays : ∀ graph next a, present graph a → next.arena = graph.arena → present next a)
    (items : List ι) (graph : Graph) : ∃ next, items.foldlM step graph = .ok next ∧
      graph.Upkeep next ∧ ((∀ a ∈ items, present graph a) → next.arena = graph.arena) := by
  induction items generalizing graph with
  | nil => exact ⟨graph, rfl, .refl graph, fun _ => rfl⟩
  | cons a items ih =>
    obtain ⟨middle, first, entries, arena⟩ := each graph a
    obtain ⟨last, rest, entries', arena'⟩ := ih middle
    refine ⟨last, by rw [List.foldlM_cons, first]; exact rest, entries.trans entries', ?_⟩
    intro all
    have same := arena (all a List.mem_cons_self)
    rw [arena' fun b hb => stays graph middle b (all b (List.mem_cons_of_mem a hb)) same, same]

theorem completeDefinitions_isOk (graph : Graph) : ∃ next,
    graph.completeDefinitions = .ok next ∧ graph.Upkeep next ∧
      ((∀ entry ∈ graph.functions, graph.Present (.functionInput entry.id) ∧
          graph.Present (.functionOutput entry.id)) →
        (∀ entry ∈ graph.structs, graph.Present (.construct entry.id)) →
        next.arena = graph.arena) := by
  obtain ⟨middle, first, entries, arena⟩ := foldlM_isOk completeFunction
    (fun graph f => graph.Present (.functionInput f) ∧ graph.Present (.functionOutput f))
    (fun graph f => by
      obtain ⟨next, completed, entries, arena⟩ := graph.completeFunction_isOk f
      exact ⟨next, completed, entries, fun present => arena present.1 present.2⟩)
    (fun _ _ _ present same => ⟨present.1.of_arena same, present.2.of_arena same⟩)
    (graph.functions.map (·.id)) graph
  obtain ⟨last, second, entries', arena'⟩ := foldlM_isOk completeStruct
    (fun graph s => graph.Present (.construct s))
    (fun graph s => graph.completeStruct_isOk s) (fun _ _ _ present same => present.of_arena same)
    (middle.structs.map (·.id)) middle
  refine ⟨last, Accepted.bind_iff.2 ⟨middle, first, second⟩, entries.trans entries', ?_⟩
  intro functions structs
  have same := arena (List.forall_mem_map.2 functions)
  refine (arena' fun s hs => ?_).trans same
  have ids : middle.structs.map (·.id) = graph.structs.map (·.id) := by
    have pairs := congrArg (List.map Prod.fst) entries.structs
    rwa [List.map_map, List.map_map] at pairs
  rw [ids] at hs
  obtain ⟨entry, he, rfl⟩ := List.mem_map.1 hs
  exact (structs entry he).of_arena same

section

variable {motive : Graph → Prop}
  (add : ∀ {graph next : Graph} {kind : NodeKind} {position : Position} {id : NodeId},
    motive graph → graph.addDefined kind position = .ok (id, next) → motive next)
  (function : ∀ {graph : Graph} (f : FunctionId) (change : FunctionEntry → FunctionEntry),
    motive graph → motive (graph.modifyFunction f change))
  (struct : ∀ {graph : Graph} (s : StructId) (change : StructEntry → StructEntry),
    motive graph → motive (graph.modifyStruct s change))
include add

private theorem firstOrNew_keeps {graph next : Graph} {kind : NodeKind} {id : NodeId}
    (start : motive graph) (found : graph.firstOrNew kind = .ok (id, next)) : motive next := by
  unfold firstOrNew at found
  split at found
  · obtain ⟨-, rfl⟩ := Prod.mk.inj (Except.ok.inj found)
    exact start
  · exact add start found

include function

private theorem fillFunction_keeps {graph next : Graph} {f : FunctionId} {lacks : Bool}
    {kind : NodeKind} {give : NodeId → FunctionEntry → FunctionEntry} (start : motive graph)
    (filled : graph.fillFunction f lacks kind give = .ok next) : motive next := by
  unfold fillFunction at filled
  split at filled
  · obtain ⟨⟨node, middle⟩, found, filled⟩ := Accepted.bind_iff.1 filled
    obtain rfl := Except.ok.inj filled
    exact function f _ (firstOrNew_keeps add start found)
  · obtain rfl := Except.ok.inj filled
    exact start

include struct

theorem completeDefinitions_keeps {graph next : Graph} (start : motive graph)
    (completed : graph.completeDefinitions = .ok next) : motive next := by
  obtain ⟨middle, functions, structs⟩ := Accepted.bind_iff.1 completed
  have filled : motive middle := by
    refine Accepted.foldlM (fun _ graph => motive graph) (fun f _ graph next start filled => ?_)
      start functions
    unfold completeFunction at filled
    split at filled
    · obtain rfl := Except.ok.inj filled
      exact start
    · obtain ⟨half, first, second⟩ := Accepted.bind_iff.1 filled
      exact fillFunction_keeps add function (fillFunction_keeps add function start first) second
  refine Accepted.foldlM (fun _ graph => motive graph) (fun s _ graph next start filled => ?_)
    filled structs
  unfold completeStruct at filled
  split at filled
  · obtain rfl := Except.ok.inj filled
    exact start
  · split at filled
    · obtain rfl := Except.ok.inj filled
      exact start
    · obtain ⟨⟨node, half⟩, found, filled⟩ := Accepted.bind_iff.1 filled
      obtain rfl := Except.ok.inj filled
      exact struct s _ (firstOrNew_keeps add start found)

end

theorem Upkeep.completeDefinitions (completed : graph.completeDefinitions = .ok next) :
    graph.Upkeep next := by
  obtain ⟨last, completed', up, -⟩ := graph.completeDefinitions_isOk
  obtain rfl := Except.ok.inj (completed'.symm.trans completed)
  exact up

end NodeScript.Graph
