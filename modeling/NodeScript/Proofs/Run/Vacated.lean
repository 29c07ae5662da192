import NodeScript.Proofs.Graph.Vacated
import NodeScript.Proofs.Run.Compiled
import NodeScript.Proofs.Run.Watched

/-!
Runs once a constructor is gone. They do as runs do while the constructor is there without its
wires; and runs that never read what the constructor makes do so whether it has wires or not. Main
statements: `Vacated.emit_eq` and `emitWatched_cut`.
-/

set_option autoImplicit false
set_option relaxedAutoImplicit false

namespace NodeScript

open Run

namespace Graph

variable {admits : Admits} {graph next : Graph} {boundary id : NodeId} {s : StructId}

def Beside (graph : Graph) (boundary id : NodeId) : Prop :=
  id ≠ boundary ∧ (graph.node? id).isSome

theorem HasKind.beside {kind : NodeKind} (has : graph.HasKind id kind)
    (own : graph.HasKind boundary (.construct s)) (other : kind ≠ .construct s) :
    graph.Beside boundary id := by
  obtain ⟨node, here, -⟩ := hasKind_iff.1 has
  refine ⟨?_, Option.isSome_of_eq_some here⟩
  rintro rfl
  exact other (has.unique own)

theorem Vacated.form?_iff (vacated : graph.Vacated next boundary)
    (own : graph.HasKind boundary (.construct s)) {form : Form}
    (made : ∀ s, form.kind ≠ .construct s) :
    next.form? id = some form ↔ graph.form? id = some form := by
  have same (beside : graph.Beside boundary id) : next.form? id = graph.form? id := by
    rw [form?, vacated.nodes id beside.1 beside.2]
    exact form?_restrict graph _ id
  constructor
  · intro found
    rcases vacated.others id form found with beside | ⟨s, kind⟩
    · rwa [← same beside]
    · exact absurd kind (made s)
  · intro found
    rwa [same (HasKind.beside ⟨form, found, rfl⟩ own (made s))]

theorem Vacated.builtin?_eq (vacated : graph.Vacated next boundary)
    (own : graph.HasKind boundary (.construct s)) (id : NodeId) :
    next.builtin? id = graph.builtin? id := by
  refine builtin?_congr fun form type kind => ?_
  exact vacated.form?_iff own fun s made => by simp [kind] at made

theorem Vacated.hasKind_iff (vacated : graph.Vacated next boundary)
    (own : graph.HasKind boundary (.construct s)) {kind : NodeKind}
    (made : ∀ s, kind ≠ .construct s) : next.HasKind id kind ↔ graph.HasKind id kind := by
  refine exists_congr fun form => and_congr_left fun same => ?_
  subst same
  exact vacated.form?_iff own made

theorem builtin?_cut (graph : Graph) (boundary id : NodeId) :
    (graph.cut boundary).builtin? id = graph.builtin? id := by
  rw [builtin?, cut, form?_restrict]
  rfl

theorem HasKind.cut (boundary : NodeId) {kind : NodeKind} :
    (graph.cut boundary).HasKind id kind ↔ graph.HasKind id kind := by
  rw [HasKind, Graph.cut, form?_restrict]
  rfl

theorem signalTarget?_congr {source : OutputRef}
    (same : next.node? source.node = graph.node? source.node) :
    next.signalTarget? source = graph.signalTarget? source := by
  rw [signalTarget?_eq, signalTarget?_eq, output?, output?, same]

private theorem head?_filter {α : Type} {keep : α → Bool} {items : List α}
    (first : ∀ a, items.head? = some a → keep a = true) :
    (items.filter keep).head? = items.head? := by
  cases items with
  | nil => rfl
  | cons a items => rw [List.filter_cons_of_pos (first a rfl)]; rfl

theorem signalTarget?_restrict {keep : Keep} {source : OutputRef}
    (kept : ∀ target, graph.signalTarget? source = some target → keep source target = true) :
    (graph.restrict keep).signalTarget? source = graph.signalTarget? source := by
  rw [signalTarget?_eq] at kept
  rw [signalTarget?_eq, signalTarget?_eq, Graph.restrict, output?_restrictEnds]
  cases found : graph.output? source with
  | none => rfl
  | some output =>
    rw [found] at kept
    exact head?_filter fun target first => kept target first

theorem source?_restrict {keep : Keep} {target : InputRef} {input input' : Input}
    (found : graph.input? target = some input)
    (found' : (graph.restrict keep).input? target = some input')
    (kept : ∀ source, input.source? = some source → keep source target = true) :
    input'.source? = input.source? := by
  rw [Graph.restrict, input?_restrictEnds, found] at found'
  obtain rfl := Option.some.inj found'
  refine congrArg (Option.map Wire.source) (head?_filter fun wire first => ?_)
  exact kept wire.source (by rw [Input.source?, first]; rfl)

theorem Wired.target_beside (wired : graph.Wired) {source : OutputRef} {target : InputRef}
    (found : (graph.cut boundary).signalTarget? source = some target) :
    graph.Beside boundary target.node := by
  rw [signalTarget?_eq, Graph.cut, Graph.restrict, output?_restrictEnds,
    Option.bind_eq_some_iff] at found
  obtain ⟨_, found, first⟩ := found
  obtain ⟨output, ho, rfl⟩ := Option.map_eq_some_iff.1 found
  have mem := List.mem_of_head? first
  rw [Output.restrict, List.mem_filter] at mem
  obtain ⟨input, hi, -⟩ := wired.target ho mem.1
  have apart : source.node ≠ boundary ∧ target.node ≠ boundary := by
    simpa [Keep.apart] using mem.2
  exact ⟨apart.2, isSome_of_input? hi⟩

theorem Wired.source_beside (wired : graph.Wired) {target : InputRef} {source : OutputRef}
    {input : Input} (found : (graph.cut boundary).input? target = some input)
    (reads : input.source? = some source) : graph.Beside boundary source.node := by
  rw [Graph.cut, Graph.restrict, input?_restrictEnds, Option.map_eq_some_iff] at found
  obtain ⟨before, hi, rfl⟩ := found
  obtain ⟨wire, first, rfl⟩ := Option.map_eq_some_iff.1 reads
  have mem := List.mem_of_head? first
  rw [Input.restrict, List.mem_filter] at mem
  obtain ⟨output, ho, -⟩ := wired.source hi mem.1
  have apart : wire.source.node ≠ boundary ∧ target.node ≠ boundary := by
    simpa [Keep.apart] using mem.2
  exact ⟨apart.1, isSome_of_output? ho⟩

end Graph

section

variable {registry : Registry} {admits : Graph.Admits} {graph next : Graph} {boundary : NodeId}
  {s : StructId} {limit : Nat}

theorem Graph.parametric_of_machine (parametric : registry.Parametric) {id : NodeId}
    {behavior : Behavior} (found : (graph.machine registry limit).program.behavior? id =
      some behavior) : behavior.Parametric := by
  obtain ⟨node, -, registered⟩ := Option.bind_eq_some_iff.1
    ((Program.behavior?_compile graph registry id).symm.trans found)
  exact parametric _ _ registered

private theorem Graph.Owned.beside (owned : graph.Owned)
    (own : graph.HasKind boundary (.construct s)) {f : FunctionId} {entry : FunctionEntry}
    (found : graph.function? f = some entry) {id : NodeId}
    (belongs : entry.input = some id ∨ entry.output = some id) : graph.Beside boundary id := by
  have mem := List.mem_of_find?_eq_some found
  rcases belongs with input | output
  · exact (owned.inputs entry mem id input).beside own (by simp)
  · exact (owned.outputs entry mem id output).beside own (by simp)

private theorem Graph.WellFormed.schema_of_constructor (formed : graph.WellFormed admits)
    {id : NodeId} (has : graph.HasKind id (.construct s)) :
    ∃ schema, graph.schemaAt? s = some schema := by
  obtain ⟨form, hf, kind⟩ := has
  have fits := formed.fit hf
  cases found : graph.schemaAt? s with
  | some schema => exact ⟨schema, rfl⟩
  | none => simp [Graph.Fits, kind, Graph.definedPorts_construct, found] at fits

/-- Without the constructor all is as it is without the wires of the constructor. -/
theorem Graph.Vacated.simulates (vacated : graph.Vacated next boundary)
    (formed : graph.WellFormed admits) (own : graph.HasKind boundary (.construct s))
    (parametric : registry.Parametric) :
    Machine.Simulates (fun _ => False) (graph.Beside boundary) (fun _ _ => False)
      (fun _ read => read) ((graph.cut boundary).machine registry limit)
      (next.machine registry limit) := by
  have builtins (id : NodeId) : next.builtin? id = (graph.cut boundary).builtin? id :=
    (vacated.builtin?_eq own id).trans (builtin?_cut graph boundary id).symm
  have nodes {id : NodeId} (seen : graph.Beside boundary id) :
      next.node? id = (graph.cut boundary).node? id := vacated.nodes id seen.1 seen.2
  refine {
    caught := fun _ _ never => never
    limit := .inl rfl
    behavior := fun id _ => ?_
    parametric := fun _ _ found => Graph.parametric_of_machine parametric found
    slots := fun id _ => ?_
    node := fun id seen => congrArg (Option.map Node.bare) (nodes seen)
    calls := fun id f => ?_
    callers := fun id f has => ?_
    functions := fun _ f _ => ?_
    boundaries := fun _ f entry _ found id belongs => ?_
    schemas := fun id s' seen has => ?_
    targets := fun source seen => .inl ⟨signalTarget?_congr (nodes seen), fun target found => ?_⟩
    spent := fun _ _ never => never.elim
    stuck := fun _ _ _ never => never.elim
    dry := fun _ _ _ never => never.elim
    sources := fun target input seen found => .inl ⟨fun input' found' => ?_, fun source reads => ?_⟩
    watch := fun _ _ _ follows => follows }
  · show (Program.compile next registry).behavior? id =
      (Program.compile (graph.cut boundary) registry).behavior? id
    rw [Program.behavior?_compile, Program.behavior?_compile, builtins]
  · exact congrArg (·.slotsOf id) (Program.entries_congr builtins)
  · exact (vacated.hasKind_iff own (by simp)).trans (HasKind.cut boundary).symm
  · exact ((HasKind.cut boundary).1 has).beside own (by simp)
  · exact congrArg (List.find? (·.id == f)) vacated.functions
  · exact formed.owned.beside own found belongs
  · obtain ⟨schema, known⟩ := formed.schema_of_constructor ((HasKind.cut boundary).1 has)
    exact (vacated.schemas id s' schema seen.1
      ((HasKind.cut boundary).1 has) known).trans known.symm
  · exact formed.wired.target_beside found
  · have same : next.input? target = (graph.cut boundary).input? target := by
      rw [input?, input?, nodes seen]
    rw [Option.some.inj (found'.symm.trans (same.trans found))]
  · exact formed.wired.source_beside found reads

def Stop.Uncaught (stop : Stop) : Prop := ∀ node input, stop ≠ .fault (.missingValue node input)

theorem Machine.stuck_of_construct {machine : Machine} {fuel : Nat} {parts : Machine.Parts}
    {target : InputRef} (has : machine.graph.HasKind target.node (.construct s)) :
    Stops Stop.Uncaught (machine.executeWith fuel parts target) := by
  obtain ⟨node, here, kind⟩ := Graph.hasKind_iff.1 has
  unfold Machine.executeWith
  rw [here]
  intro ctx
  dsimp only
  rw [runAt_bind, kind]
  exact ⟨_, _, rfl, fun _ _ => by simp⟩

/-- Readings of what a node gives out stop the run. -/
def Graph.sparing (graph : Graph) (id : NodeId) (target : InputRef) (read : Run Value) :
    Run Value :=
  if ((graph.input? target).bind Input.source?).any (·.node = id) then throw .outOfFuel else read

theorem Run.Follows.sparing {read read' : Run Value}
    (follows : Run.Follows Stop.Uncaught read read')
    (graph : Graph) (id : NodeId) (target : InputRef) :
    Run.Follows Stop.Uncaught (graph.sparing id target read) read' := by
  unfold Graph.sparing
  split
  · exact (Stops.throw fun _ _ => by simp).follows _
  · exact follows

/-- A run that never reads what a constructor makes can do without its wires. -/
theorem Graph.WellFormed.simulates_cut (formed : graph.WellFormed admits)
    (own : graph.HasKind boundary (.construct s)) (parametric : registry.Parametric) :
    Machine.Simulates Stop.Uncaught (graph.Beside boundary)
      (fun side id => side = .input ∧ id = boundary) (graph.sparing boundary)
      (graph.machine registry limit) ((graph.cut boundary).machine registry limit) := by
  refine {
    caught := fun node input uncaught => uncaught node input rfl
    limit := .inl rfl
    behavior := fun id _ => ?_
    parametric := fun _ _ found => Graph.parametric_of_machine parametric found
    slots := fun id _ => ?_
    node := fun id seen => bare?_restrict graph _ id
    calls := fun id f => HasKind.cut boundary
    callers := fun id f has => has.beside own (by simp)
    functions := fun _ f _ => rfl
    boundaries := fun _ f entry _ found id belongs => formed.owned.beside own found belongs
    schemas := fun id s' seen has => rfl
    targets := fun source seen => ?_
    spent := fun _ _ _ _ _ => by simp
    stuck := fun fuel parts target dead => by
      rw [← dead.2] at own
      exact Machine.stuck_of_construct own
    dry := fun _ _ _ never => by simp at never
    sources := fun target input seen found => ?_
    watch := fun target _ _ follows => follows.sparing graph boundary target }
  · show (Program.compile (graph.cut boundary) registry).behavior? id =
      (Program.compile graph registry).behavior? id
    rw [Program.behavior?_compile, Program.behavior?_compile, builtin?_cut]
  · exact congrArg (·.slotsOf id) (Program.entries_congr (builtin?_cut graph boundary))
  · by_cases apart : ∀ target, graph.signalTarget? source = some target → target.node ≠ boundary
    · have same : (graph.cut boundary).signalTarget? source = graph.signalTarget? source :=
        signalTarget?_restrict fun target found => by simp [Keep.apart, seen.1, apart target found]
      exact .inl ⟨same, fun target found => formed.wired.target_beside (same.trans found)⟩
    · push Not at apart
      obtain ⟨target, found, here⟩ := apart
      exact .inr ⟨target, found, rfl, here⟩
  · by_cases apart : ∀ source, input.source? = some source → source.node ≠ boundary
    · have left : (graph.cut boundary).input? target =
          some (input.restrict (Keep.apart boundary) target) :=
        (input?_restrictEnds ..).trans (congrArg (Option.map _) found)
      have kept (source : OutputRef) (reads : input.source? = some source) :
          Keep.apart boundary source target = true := by
        simp [Keep.apart, seen.1, apart source reads]
      refine .inl ⟨fun _ found' => source?_restrict found found' kept, fun source reads => ?_⟩
      exact formed.wired.source_beside left ((source?_restrict found left kept).trans reads)
    · push Not at apart
      obtain ⟨source, reads, here⟩ := apart
      refine .inr (.inr fun read => ?_)
      have stops : graph.sparing boundary target read = throw .outOfFuel := by
        rw [Graph.sparing, if_pos]
        simp [show graph.input? target = some input from found, reads, here]
      rw [stops]
      exact Stops.throw fun _ _ => by simp

private theorem root_beside (own : graph.HasKind boundary (.construct s)) {entry : EntryPoint}
    {root : OutputRef}
    (found : (Program.compile graph .builtin).entries.root? entry = some root) :
    graph.Beside boundary root.node := by
  have event := (Graph.hasKind_root found).2
  exact event.beside own (by simp)

theorem Graph.Vacated.emit_eq (vacated : graph.Vacated next boundary)
    (formed : graph.WellFormed admits) (own : graph.HasKind boundary (.construct s))
    (limit fuel : Nat)
    (entry : EntryPoint) : (next.machine .builtin limit).emit fuel entry =
      ((graph.cut boundary).machine .builtin limit).emit fuel entry := by
  have simulates : Machine.Simulates _ _ _ _ ((graph.cut boundary).machine .builtin limit)
      (next.machine .builtin limit) := vacated.simulates formed own Registry.builtin_parametric
  have entries : (Program.compile next .builtin).entries =
      (Program.compile (graph.cut boundary) .builtin).entries := Program.entries_congr fun id =>
    (vacated.builtin?_eq own id).trans (builtin?_cut graph boundary id).symm
  have cut : (Program.compile (graph.cut boundary) .builtin).entries =
      (Program.compile graph .builtin).entries :=
    Program.entries_congr (builtin?_cut graph boundary)
  have beside (handle : EntryPoint) (root : OutputRef)
      (found : (Program.compile (graph.cut boundary) .builtin).entries.root? handle = some root) :
      graph.Beside boundary root.node := by
    rw [cut] at found
    exact root_beside own found
  have follows : Run.Follows _
      (((graph.cut boundary).machine .builtin limit).emitWatched _ fuel entry) _ :=
    simulates.emit_follows entries beside entry
  rw [← follows.eq, Machine.emitWatched_eq_emit]

theorem Graph.WellFormed.emit_cut (formed : graph.WellFormed admits)
    (own : graph.HasKind boundary (.construct s)) (limit fuel : Nat) (entry : EntryPoint) :
    Run.Follows Stop.Uncaught
      ((graph.machine .builtin limit).emitWatched (graph.sparing boundary) fuel entry)
      (((graph.cut boundary).machine .builtin limit).emit fuel entry) := by
  have entries : (Program.compile (graph.cut boundary) .builtin).entries =
      (Program.compile graph .builtin).entries :=
    Program.entries_congr (builtin?_cut graph boundary)
  have simulates : Machine.Simulates _ _ _ _ (graph.machine .builtin limit)
      ((graph.cut boundary).machine .builtin limit) :=
    formed.simulates_cut own Registry.builtin_parametric
  exact simulates.emit_follows entries (fun _ _ => root_beside own) entry

end

end NodeScript
