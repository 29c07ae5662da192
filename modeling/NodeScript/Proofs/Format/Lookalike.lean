import NodeScript.Proofs.Format.Closed
import NodeScript.Proofs.Format.Nominal
import NodeScript.Proofs.Format.Rewritten

/-!
Graphs that look the same. What there is to see of a graph tells everything of its nodes that is
written, but a type only by its name, and a struct may be named like another type. Main statement:
`Reached.encode_eq_iff`: graphs that look the same are written in the same bytes exactly when they
declare the same, and they do where the names of structs tell them from other types.
-/

set_option autoImplicit false
set_option relaxedAutoImplicit false

namespace NodeScript

open Format NodeScript.Graph Schema

namespace Graph

variable {registry : Registry} {graph next : Graph} {version : Int32}

/-- Structs are mentioned as they are declared, and stand behind those that they mention. -/
structure Orderly (registry : Registry) (graph : Graph) : Prop where
  formed : graph.WellFormed registry.Canonical
  settled : graph.Settled registry
  closed : graph.Closed
  ordered : Ordered [] graph.schemas

/-- Two graphs have the same structs and the same functions in the same order. -/
def DeclareAlike (graph next : Graph) : Prop :=
  graph.schemas = next.schemas ∧
    graph.functions.map (·.signature) = next.functions.map (·.signature)

theorem Orderly.declareAlike (orderly : graph.Orderly registry) (orderly' : next.Orderly registry)
    (structs : graph.schemas.map Schema.nominal = next.schemas.map Schema.nominal)
    (functions : (graph.functions.map (·.signature)).map Signature.nominal =
      (next.functions.map (·.signature)).map Signature.nominal) : graph.DeclareAlike next := by
  rw [List.map_map, List.map_map] at functions
  have schemas : graph.schemas = next.schemas := by
    have before : ∀ name ∈ [], name ∈ ([] : List Schema).map (·.name) := fun _ none => none
    exact Schema.eq_of_nominal before orderly.ordered orderly'.ordered orderly.settled.fields
      orderly'.settled.fields structs
  refine ⟨schemas, map_eq_map functions fun entry he entry' he' same => ?_⟩
  have known := orderly'.settled.parameters entry' he'
  rw [← schemas] at known
  exact Signature.eq_of_nominal (orderly.settled.parameters entry he) known same

end Graph

theorem Reached.orderly {graph : Graph}
    (reached : Reached (· = .empty) (Edit.Leads (· = Registry.builtin)
    fun graph edit => edit.IsGuarded graph ∧ edit.IsCurrent graph) graph) :
    graph.Orderly Registry.builtin := by
  obtain ⟨formed, settled⟩ := reached.settled Registry.builtin_steady fun _ h => h
  have authored : graph.Authored (fun registry => registry = Registry.builtin) _ :=
    .of_reached reached
  have drawn (registry : Registry) (same : registry = Registry.builtin) : registry.Drawn := by
    subst same
    exact Registry.builtin_drawn
  obtain ⟨closed, ordered⟩ := authored.closed drawn fun _ _ allowed => allowed.1
  exact ⟨formed, settled, closed, ordered⟩

namespace Graph

variable {registry : Registry} {graph next : Graph} {version : Int32}

/-- What there is to see of a node but its number. -/
def seen (graph : Graph) (entry : NodeId × Node) : Summary.Node :=
  graph.summaryOfNode graph.ranks 0 entry.2

/-- Two graphs look the same, but for what is in use. -/
structure LooksLike (graph next : Graph) : Prop where
  schemas : graph.schemas.map Schema.shown = next.schemas.map Schema.shown
  signatures : (graph.functions.map (·.signature)).map Signature.shown =
    (next.functions.map (·.signature)).map Signature.shown
  nodes : graph.live.map graph.seen = next.live.map next.seen

theorem looksLike_of_summary_eq (same : graph.summary = next.summary) : graph.LooksLike next := by
  obtain ⟨structs, functions, nodes⟩ := Summary.mk.inj same
  refine ⟨?_, ?_, ?_⟩
  · have each := congrArg (List.map fun shown => (shown.name, shown.inputs)) structs
    simpa [Graph.schemas, Schema.shown, Function.comp_def] using each
  · have each :=
      congrArg (List.map fun shown => (shown.name, shown.inputs, shown.outputs)) functions
    simpa [Signature.shown, Function.comp_def] using each
  · have each := congrArg (List.map fun node : Summary.Node => { node with index := 0 }) nodes
    have unnumbered (graph : Graph) : graph.summary.nodes.map
        (fun node => { node with index := 0 }) = graph.live.map graph.seen := by
      conv_rhs => rw [← List.zipIdx_map_fst 0 graph.live]
      rw [summary, List.map_map, List.map_map]
      rfl
    exact (unnumbered graph).symm.trans (each.trans (unnumbered next))

theorem code_of_word {kind other : NodeKind} (same : kind.word = other.word) :
    kind.code = other.code := by
  cases kind <;> cases other <;> first | rfl | simp [NodeKind.word] at same

theorem numbered_record (ranks : Array (Option Nat)) (input : Input) :
    numbered ranks (fun source wire => (⟨source, wire.source.slot, wire.relays⟩ : WireRecord))
        input =
      (summaryOfInput ranks input).wires.map fun wire =>
        ⟨wire.source, wire.output, wire.relays⟩ := by
  rw [summaryOfInput, numbered, numbered, List.map_filterMap]
  refine List.filterMap_congr fun wire _ => ?_
  rw [Option.map_map]
  rfl

theorem record?_eq_of_seen {entry entry' : NodeId × Node}
    (named : (graph.nameOf? entry.2.kind).isSome) (named' : (next.nameOf? entry'.2.kind).isSome)
    (same : graph.seen entry = next.seen entry') :
    graph.record? graph.ranks registry version entry.2 =
      next.record? next.ranks registry version entry'.2 := by
  obtain ⟨-, word, id, position, config, inputs, -⟩ := Summary.Node.mk.inj same
  -- A node without a name is seen like one whose name is empty, but there is none here.
  have names : graph.nameOf? entry.2.kind = next.nameOf? entry'.2.kind := by
    obtain ⟨name, hname⟩ := Option.isSome_iff_exists.1 named
    obtain ⟨name', hname'⟩ := Option.isSome_iff_exists.1 named'
    rw [hname, hname'] at id ⊢
    exact congrArg some id
  have insets : insetsOf entry.2 = insetsOf entry'.2 := by
    have each : entry.2.inputs.map (·.inset) = entry'.2.inputs.map (·.inset) := by
      simpa [summaryOfInput, Function.comp_def] using congrArg (List.map (·.inset)) inputs
    rw [insetsOf_eq, each, ← insetsOf_eq]
  have wires := congrArg (List.map fun input => input.wires.map fun wire =>
    (⟨wire.source, wire.output, wire.relays⟩ : WireRecord)) inputs
  rw [List.map_map, List.map_map, Function.comp_def, Function.comp_def] at wires
  have bytes : configBytes registry entry.2 = configBytes registry entry'.2 := by
    unfold configBytes
    rw [config]
    cases kind : entry.2.kind <;> cases kind' : entry'.2.kind <;>
      simp_all [nameOf?, NodeKind.word]
  rw [record?, record?, names, code_of_word word, position, insets, bytes,
    funext (numbered_record graph.ranks), funext (numbered_record next.ranks), wires]

theorem Orderly.definitionFault?_eq (orderly : graph.Orderly registry) : graph.definitionFault? =
    ((graph.schemas.map Schema.shown).find? (255 < ·.2.length)).map fun shown =>
      s!"struct {shown.1} has too many fields" := by
  rw [orderly.closed.definitionFault?_eq orderly.ordered]
  simp [schemas, List.find?_map, Function.comp_def, Schema.shown]

namespace LooksLike

variable (alike : graph.LooksLike next)
include alike

theorem any_eq {test : Node → Bool} (each : ∀ entry entry', graph.seen entry = next.seen entry' →
    test entry.2 = test entry'.2) :
    (graph.live.map (·.2)).any test = (next.live.map (·.2)).any test := by
  have tests := map_eq_map alike.nodes fun entry _ entry' _ same => each entry entry' same
  simpa [Function.comp_def] using congrArg (List.any · id) tests

theorem fault?_eq (orderly : graph.Orderly registry) (orderly' : next.Orderly registry)
    (version : Int32) : graph.fault? version = next.fault? version := by
  have structs : graph.structs.isEmpty = next.structs.isEmpty := by
    simpa [Graph.schemas] using congrArg List.isEmpty alike.schemas
  have functions : graph.functions.isEmpty = next.functions.isEmpty := by
    simpa using congrArg List.isEmpty alike.signatures
  have definitions : graph.definitionFault? = next.definitionFault? := by
    rw [orderly.definitionFault?_eq, orderly'.definitionFault?_eq, alike.schemas]
  unfold fault?
  dsimp only
  rw [structs, functions, alike.any_eq, alike.any_eq]
  · split_ifs
    -- Where no check of the version fails, the definitions are asked.
    case neg => exact definitions
    all_goals rfl
  · intro entry entry' same
    have insets := congrArg (·.inputs.any (·.inset.isSome)) same
    simpa [seen, summaryOfNode, summaryOfInput, Function.comp_def] using insets
  · intro entry entry' same
    have word : entry.2.kind.word = entry'.2.kind.word := congrArg (·.kind) same
    cases kind : entry.2.kind <;> cases kind' : entry'.2.kind <;>
      simp [kind, kind', NodeKind.word] at word ⊢

theorem records_eq {admits admits' : Admits} (formed : graph.WellFormed admits)
    (formed' : next.WellFormed admits') {records : List NodeRecord}
    (recorded : graph.records registry version = .ok records) :
    next.records registry version = .ok records := by
  have each : graph.live.map (fun entry =>
        graph.record? graph.ranks registry version entry.2) =
      next.live.map fun entry => next.record? next.ranks registry version entry.2 :=
    map_eq_map alike.nodes fun entry he entry' he' same =>
      record?_eq_of_seen (formed.nameOf?_isSome (mem_live.1 he))
        (formed'.nameOf?_isSome (mem_live.1 he')) same
  have all := (List.forall₂_map_left_iff (R := fun made record => made = some record)).2
    (records_iff.1 recorded)
  rw [each] at all
  exact records_iff.2 (List.forall₂_map_left_iff.1 all)

theorem encode_eq_ok_iff (orderly : graph.Orderly registry) (orderly' : next.Orderly registry)
    {file : Bytes} (written : graph.encode registry version = .ok file) :
    next.encode registry version = .ok file ↔ graph.DeclareAlike next := by
  obtain ⟨fine, records, recorded, rfl⟩ := encode_eq_file_iff.1 written
  have fine' := fine
  rw [alike.fault?_eq orderly orderly' version] at fine'
  have recorded' := alike.records_eq orderly.formed orderly'.formed recorded
  rw [encode_eq_file_iff]
  constructor
  · rintro ⟨-, _, again, same⟩
    obtain rfl := Except.ok.inj (again.symm.trans recorded')
    obtain ⟨expressible, -⟩ := expressible_of_fault? fine
    obtain ⟨expressible', -⟩ := expressible_of_fault? fine'
    have noStructs (old : ¬Format.withStructs ≤ version) :
        graph.schemas = [] ∧ next.schemas = [] := by
      rw [Int32.not_le] at old
      simp [Graph.schemas, expressible.structs old, expressible'.structs old]
    have noFunctions (old : ¬Format.withFunctions ≤ version) :
        graph.functions.map (·.signature) = [] ∧ next.functions.map (·.signature) = [] := by
      rw [Int32.not_le] at old
      simp [expressible.functions old, expressible'.functions old]
    obtain ⟨structs, behind⟩ := Schema.discerns_encode.table noStructs alike.schemas
      (List.append_cancel_left same)
    obtain ⟨functions, -⟩ := Signature.discerns_encode.table noFunctions alike.signatures behind
    exact orderly.declareAlike orderly' structs functions
  · rintro ⟨structs, functions⟩
    exact ⟨fine', records, recorded', by rw [tables, tables, structs, functions]⟩

theorem declareAlike (orderly : graph.Orderly registry) (orderly' : next.Orderly registry)
    (told : DataType.ToldBy (graph.schemas.map (·.name))) : graph.DeclareAlike next := by
  have names : graph.schemas.map (·.name) = next.schemas.map (·.name) := by
    simpa [Schema.shown, Function.comp_def] using congrArg (List.map Prod.fst) alike.schemas
  have closed' := orderly'.closed
  refine orderly.declareAlike orderly' ?_ ?_
  · refine map_eq_map alike.schemas fun schema hs schema' hs' same => ?_
    have named := closed'.fields schema' hs'
    rw [← names] at named
    exact Schema.nominal_eq told (orderly.closed.fields schema hs) named same
  · refine map_eq_map alike.signatures fun signature hs signature' hs' same => ?_
    obtain ⟨entry, he, rfl⟩ := List.mem_map.1 hs
    obtain ⟨entry', he', rfl⟩ := List.mem_map.1 hs'
    have named := closed'.parameters entry' he'
    rw [← names] at named
    exact Signature.nominal_eq told (orderly.closed.parameters entry he) named same

end LooksLike

end Graph

/-- Graphs that look the same are refused for the same reasons. Where they are not, they are written
in the same bytes exactly when they declare the same, and so they are where the names of structs
tell types. -/
theorem Reached.encode_eq_iff {graph next : Graph}
    (reached : Reached (· = .empty) (Edit.Leads (· = Registry.builtin)
      fun graph edit => edit.IsGuarded graph ∧ edit.IsCurrent graph) graph)
    (reached' : Reached (· = .empty) (Edit.Leads (· = Registry.builtin)
      fun graph edit => edit.IsGuarded graph ∧ edit.IsCurrent graph) next)
    (same : graph.summary = next.summary) :
    (∀ version reason, graph.encode Registry.builtin version = .error reason ↔
        next.encode Registry.builtin version = .error reason) ∧
      (∀ version,
        graph.encode Registry.builtin version = next.encode Registry.builtin version ↔
          (∃ reason, graph.encode Registry.builtin version = .error reason) ∨
            graph.DeclareAlike next) ∧
      (DataType.ToldBy (graph.schemas.map (·.name)) → ∀ version,
        graph.encode Registry.builtin version = next.encode Registry.builtin version) := by
  have alike := looksLike_of_summary_eq same
  have orderly := reached.orderly
  have orderly' := reached'.orderly
  have refused (version : Int32) (reason : FileError) :
      graph.encode Registry.builtin version = .error reason ↔
        next.encode Registry.builtin version = .error reason := by
    rw [orderly.formed.encode_eq_error_iff, orderly'.formed.encode_eq_error_iff,
      alike.fault?_eq orderly orderly']
  have bytes (version : Int32) :
      graph.encode Registry.builtin version = next.encode Registry.builtin version ↔
        (∃ reason, graph.encode Registry.builtin version = .error reason) ∨
          graph.DeclareAlike next := by
    cases written : graph.encode Registry.builtin version with
    | error reason =>
      exact iff_of_true ((refused version reason).1 written).symm (.inl ⟨reason, rfl⟩)
    | ok file =>
      rw [eq_comm, alike.encode_eq_ok_iff orderly orderly' written]
      simp
  exact ⟨refused, bytes, fun told version =>
    (bytes version).2 (.inr (alike.declareAlike orderly orderly' told))⟩

def Edit.resketching : List Edit :=
  .addBuiltin "math/Add" .null .zero :: .remove ⟨0⟩ :: Edit.sketching

/-- The two sketches look the same and are written in the same bytes. -/
theorem resketching_encode_eq : ∃ graph next,
    Edit.sketching.foldlM (Edit.apply Registry.builtin) .empty = .ok graph ∧
      Edit.resketching.foldlM (Edit.apply Registry.builtin) .empty = .ok next ∧
      graph.live.map (·.1) = [⟨0⟩, ⟨1⟩] ∧ next.live.map (·.1) = [⟨1⟩, ⟨2⟩] ∧
      graph.summary = next.summary ∧ ∀ version,
        graph.encode Registry.builtin version = next.encode Registry.builtin version := by
  have shown : (Edit.sketching.foldlM (Edit.apply Registry.builtin) .empty).toOption.map summary =
      (Edit.resketching.foldlM (Edit.apply Registry.builtin) .empty).toOption.map summary := by
    cbv
  have facts : (Edit.sketching.foldlM (Edit.apply Registry.builtin) .empty).toOption.map
      (fun graph => (graph.schemas.map (·.name), graph.live.map (·.1))) =
        some (["Mark", "Point"], [⟨0⟩, ⟨1⟩]) := by cbv
  have facts' : (Edit.resketching.foldlM (Edit.apply Registry.builtin) .empty).toOption.map
      (fun graph => graph.live.map (·.1)) = some [⟨1⟩, ⟨2⟩] := by cbv
  obtain ⟨graph, built, facts⟩ := Option.map_eq_some_iff.1 facts
  obtain ⟨next, built', places'⟩ := Option.map_eq_some_iff.1 facts'
  obtain ⟨names, places⟩ := Prod.mk.inj facts
  rw [built, built'] at shown
  have same : graph.summary = next.summary := Option.some.inj shown
  have built := Accepted.toOption_eq_some_iff.1 built
  have built' := Accepted.toOption_eq_some_iff.1 built'
  have allowed (edit : Edit) (he : edit ∈ Edit.resketching) (graph : Graph) :
      edit.IsGuarded graph ∧ edit.IsCurrent graph := by
    simp only [Edit.resketching, Edit.sketching, List.mem_cons, List.not_mem_nil, or_false] at he
    rcases he with rfl | rfl | rfl | rfl
    · exact ⟨trivial, trivial⟩
    · exact ⟨trivial, trivial⟩
    all_goals
      refine ⟨trivial, fun field hf => DataType.isKnown_of_schema? ?_⟩
      fin_cases hf <;> rfl
  have reached : Reached (· = .empty) (Edit.Leads (· = Registry.builtin)
      fun graph edit => edit.IsGuarded graph ∧ edit.IsCurrent graph) graph :=
    Reached.foldlM rfl (.first rfl)
      (fun edit he => allowed edit (List.mem_cons_of_mem _ (List.mem_cons_of_mem _ he))) built
  have reached' : Reached (· = .empty) (Edit.Leads (· = Registry.builtin)
      fun graph edit => edit.IsGuarded graph ∧ edit.IsCurrent graph) next :=
    Reached.foldlM rfl (.first rfl) allowed built'
  have told : DataType.ToldBy (graph.schemas.map (·.name)) := by
    rw [names]
    exact DataType.toldBy_of_plain (by decide)
  exact ⟨graph, next, built, built', places, places', same,
    (reached.encode_eq_iff reached' same).2.2 told⟩

def Schema.namesake : Schema := { name := "player", fields := [("score", .number)] }

def Schema.pairing (host best : DataType) : Schema :=
  { name := "Match", fields := [("host", host), ("best", best)] }

def Edit.matching : List Edit := [
  .defineStruct .namesake .zero,
  .defineStruct (.pairing .player Schema.namesake.type) .zero]

def Edit.exchanging : Edit := .redefineStruct ⟨1⟩ (.pairing Schema.namesake.type .player)

private theorem pairing_isKnown {known : List Schema} {host best : DataType}
    (declared : Schema.find? known "player" = some .namesake)
    (types : ∀ type ∈ [host, best], type = .player ∨ type = Schema.namesake.type) :
    ∀ field ∈ (Schema.pairing host best).fields, field.type.IsKnown known := by
  intro field hf
  have among : field.type ∈ [host, best] := by
    rcases List.mem_pair.1 hf with rfl | rfl <;> simp
  rcases types _ among with same | same <;> rw [same]
  · exact DataType.isKnown_of_schema? rfl
  · exact DataType.isKnown_type declared

/-- The exchange cannot be seen, but it is written. -/
theorem exchanging_unseen : ∃ graph next file file',
    Reached (· = .empty) (Edit.Leads (· = Registry.builtin)
        fun graph edit => edit.IsGuarded graph ∧ edit.IsCurrent graph) graph ∧
      Reached (· = .empty) (Edit.Leads (· = Registry.builtin)
        fun graph edit => edit.IsGuarded graph ∧ edit.IsCurrent graph) next ∧
      graph.summary = next.summary ∧ graph.encode Registry.builtin current = .ok file ∧
      next.encode Registry.builtin current = .ok file' ∧ file ≠ file' := by
  have facts : (Edit.matching.foldlM (Edit.apply Registry.builtin) .empty).toOption.map
      (fun graph => (graph.structInUse ⟨1⟩, graph.schemas,
        (graph.encode Registry.builtin current).toOption.map (·[47]?),
        (Edit.exchanging.apply Registry.builtin graph).toOption.bind fun next =>
          (next.encode Registry.builtin current).toOption.map (·[47]?))) =
      some (false, [.namesake, .pairing .player Schema.namesake.type], some (some 4),
        some (some 6)) := by cbv
  have shown : (Edit.matching.foldlM (Edit.apply Registry.builtin) .empty).toOption.map
        (fun graph => some graph.summary) =
      (Edit.matching.foldlM (Edit.apply Registry.builtin) .empty).toOption.map
        (fun graph => (Edit.exchanging.apply Registry.builtin graph).toOption.map summary) := by cbv
  have first : (Edit.apply Registry.builtin .empty (.defineStruct .namesake .zero)).toOption.map
      (·.schemas) = some [.namesake] := by cbv
  obtain ⟨graph, built, facts⟩ := Option.map_eq_some_iff.1 facts
  simp only [built, Option.map_some, Option.some.injEq] at shown
  simp only [Prod.mk.injEq, Option.map_eq_some_iff, Option.bind_eq_some_iff] at facts
  obtain ⟨unused, schemas, ⟨file, written, byte⟩, next, changed, file', written', byte'⟩ := facts
  simp only [changed, Option.map_some, Option.some.injEq] at shown
  obtain ⟨only, defined, declared⟩ := Option.map_eq_some_iff.1 first
  have defined := Accepted.toOption_eq_some_iff.1 defined
  obtain ⟨_, again, built⟩ := Accepted.bind_iff.1 (Accepted.toOption_eq_some_iff.1 built)
  obtain rfl := Except.ok.inj (again.symm.trans defined)
  obtain ⟨_, built, last⟩ := Accepted.bind_iff.1 built
  rw [Except.ok.inj last] at built
  have reached : Reached (· = .empty) (Edit.Leads (· = Registry.builtin)
      fun graph edit => edit.IsGuarded graph ∧ edit.IsCurrent graph) graph := by
    refine Reached.edit (Reached.edit (.first rfl) rfl ?_ defined) rfl ?_ built
    · refine ⟨trivial, fun field hf => ?_⟩
      rw [List.mem_singleton.1 hf]
      exact DataType.isKnown_of_schema? rfl
    · exact ⟨trivial, pairing_isKnown (by rw [declared]; rfl) (by simp)⟩
  have reached' : Reached (· = .empty) (Edit.Leads (· = Registry.builtin)
      fun graph edit => edit.IsGuarded graph ∧ edit.IsCurrent graph) next := by
    refine reached.edit rfl ?_ (Accepted.toOption_eq_some_iff.1 changed)
    exact ⟨unused, pairing_isKnown (by rw [schemas]; rfl) (by simp)⟩
  refine ⟨graph, next, file, file', reached, reached', shown,
    Accepted.toOption_eq_some_iff.1 written, Accepted.toOption_eq_some_iff.1 written', ?_⟩
  rintro rfl
  exact absurd (byte.symm.trans byte') (by decide)

end NodeScript
