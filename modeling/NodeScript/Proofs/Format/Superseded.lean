import NodeScript.Proofs.Format.Authored
import NodeScript.Proofs.Format.Copied
import NodeScript.Proofs.Format.Upgraded
import NodeScript.Proofs.Graph.Spared

/-!
What becomes of the wires in a table of nodes. A wire that is put in may take the place of one that
was put in before it, of which the loader keeps no count. Main statement: of the wires in a table
those are counted that are left out, and the graph has those of the others whose place none of
them takes later (`Format.decodeWith_accounts`).
-/

set_option autoImplicit false
set_option relaxedAutoImplicit false

namespace NodeScript

open Decode NodeScript.Graph

/-- A wire that is put into a graph. -/
structure Format.Link where
  source : OutputRef
  target : InputRef
  /-- Whether signals go along it. -/
  signal : Bool
deriving DecidableEq, Repr

namespace Format

/-- Whether a wire takes the place of another: of one from the same output of signals, or of one to
the same input of values. -/
def Link.supersedes (link other : Link) : Bool :=
  if link.signal then other.source == link.source else other.target == link.target

/-- The ends of a wire. -/
def Link.ends (link : Link) : OutputRef × InputRef := (link.source, link.target)

/-- Of wires that are put in one after the other, those whose place no later one takes. -/
def standing : List Link → List Link
  | [] => []
  | link :: later =>
    if later.any (·.supersedes link) then standing later else link :: standing later

variable {link other : Link} {links : List Link}

theorem Link.supersedes_eq_false_iff : link.supersedes other = false ↔
    ¬if link.signal then other.source = link.source else other.target = link.target := by
  unfold supersedes
  cases link.signal <;> simp

theorem Link.supersedes_of_ends (same : other.ends = link.ends) : link.supersedes other = true := by
  obtain ⟨source, target⟩ := Prod.mk.inj same
  rw [supersedes, source, target]
  split <;> exact beq_self_eq_true _

theorem standing_append_singleton (links : List Link) (link : Link) :
    standing (links ++ [link]) =
      (standing links).filter (fun other => !link.supersedes other) ++ [link] := by
  induction links with
  | nil => rfl
  | cons first links ih =>
    rw [List.cons_append, standing, standing, List.any_append, ih]
    cases links.any (·.supersedes first) <;> cases next : link.supersedes first <;> simp [next]

theorem standing_sublist (links : List Link) : (standing links).Sublist links := by
  induction links with
  | nil => exact .slnil
  | cons link links ih =>
    rw [standing]
    split
    · exact ih.cons link
    · exact ih.cons_cons link

theorem standing_pairwise (links : List Link) :
    (standing links).Pairwise fun earlier later => later.supersedes earlier = false := by
  induction links with
  | nil => exact .nil
  | cons link links ih =>
    rw [standing]
    split
    · exact ih
    · rename_i free
      refine List.pairwise_cons.2 ⟨fun later mem => ?_, ih⟩
      rw [← Bool.not_eq_true]
      intro supersedes
      exact free (List.any_eq_true.2 ⟨later, (standing_sublist links).subset mem, supersedes⟩)

theorem standing_length_eq_iff : (standing links).length = links.length ↔
    links.Pairwise fun earlier later => later.supersedes earlier = false := by
  refine ⟨fun all => ?_, fun free => ?_⟩
  · rw [← (standing_sublist links).eq_of_length all]
    exact standing_pairwise links
  · induction links with
    | nil => rfl
    | cons link links ih =>
      obtain ⟨first, free⟩ := List.pairwise_cons.1 free
      rw [standing, if_neg (by simpa using first), List.length_cons, ih free, List.length_cons]

theorem standing_nodup (links : List Link) : ((standing links).map Link.ends).Nodup := by
  refine List.pairwise_map.2 ?_
  refine (standing_pairwise links).imp fun free same => ?_
  rw [Link.supersedes_of_ends same] at free
  exact absurd free (by simp)

end Format

namespace Graph

variable {graph : Graph} {source other : OutputRef} {target ref : InputRef} {output : Output}
  {input : Input}

theorem enters_restrict (keep : Keep) : (graph.restrict keep).Enters source target ↔
    graph.Enters source target ∧ keep source target = true := by
  simp only [Enters, Graph.restrict, input?_restrictEnds, Option.map_eq_some_iff]
  constructor
  · rintro ⟨_, ⟨input, hi, rfl⟩, wire, hw, rfl⟩
    obtain ⟨hw, stays⟩ := List.mem_filter.1 hw
    exact ⟨⟨input, hi, wire, hw, rfl⟩, stays⟩
  · rintro ⟨⟨input, hi, wire, hw, rfl⟩, stays⟩
    exact ⟨_, ⟨input, hi, rfl⟩, wire, List.mem_filter.2 ⟨hw, stays⟩, rfl⟩

theorem enters_join (inputAt : graph.input? target = some input) (relays : List Position) :
    (graph.join source target relays).Enters other ref ↔
      graph.Enters other ref ∨ other = source ∧ ref = target := by
  constructor
  · rintro ⟨new, hnew, wire, hw, rfl⟩
    rcases input?_join_cases inputAt hnew with hold | ⟨rfl, rfl⟩
    · exact .inl ⟨new, hold, wire, hw, rfl⟩
    · rcases List.mem_append.1 hw with hw | hw
      · exact .inl ⟨input, inputAt, wire, hw, rfl⟩
      · obtain rfl := List.mem_singleton.1 hw
        exact .inr ⟨rfl, rfl⟩
  · rintro (⟨old, hold, wire, hw, rfl⟩ | ⟨rfl, rfl⟩)
    · obtain ⟨new, hnew, keeps⟩ := input?_join_of_some hold
      exact ⟨new, hnew, wire, keeps wire hw, rfl⟩
    · refine ⟨_, by rw [input?_join, if_pos rfl, inputAt]; rfl, ⟨other, relays⟩, ?_, rfl⟩
      exact List.mem_append_right _ (List.mem_singleton_self _)

theorem Wired.mem_displaced_iff (wired : graph.Wired)
    (joinable : graph.Joinable source target output input) (enters : graph.Enters other ref) :
    (other, ref) ∈ displaced source target output input ↔
      if output.port.isSignal then other = source else ref = target := by
  unfold displaced
  split
  · simp only [List.mem_map, Prod.mk.injEq, exists_eq_right_right]
    refine ⟨fun here => here.2.symm, ?_⟩
    rintro rfl
    obtain ⟨output', outputAt, leads⟩ := (wired.enters_iff_leaves _ _).1 enters
    obtain rfl := Option.some.inj (joinable.outputAt.symm.trans outputAt)
    exact ⟨leads, rfl⟩
  · simp only [List.mem_map, Prod.mk.injEq]
    refine ⟨fun ⟨_, _, _, here⟩ => here.symm, ?_⟩
    rintro rfl
    obtain ⟨input', inputAt, wire, hw, rfl⟩ := enters
    obtain rfl := Option.some.inj (joinable.inputAt.symm.trans inputAt)
    exact ⟨wire, hw, rfl, rfl⟩

theorem Wired.enters_link (wired : graph.Wired)
    (joinable : graph.Joinable source target output input) (relays : List Position) :
    (graph.link source target relays (displaced source target output input)).Enters other ref ↔
      graph.Enters other ref ∧ ¬(if output.port.isSignal then other = source else ref = target) ∨
        other = source ∧ ref = target := by
  have inputAt (keep : Keep) :
      (graph.restrict keep).input? target = some (input.restrict keep target) := by
    rw [Graph.restrict, input?_restrictEnds, joinable.inputAt]
    rfl
  rw [link_eq_join, enters_join (inputAt _), enters_restrict]
  by_cases new : other = source ∧ ref = target
  · exact iff_of_true (.inr new) (.inr new)
  · have same : (other, ref) ≠ (source, target) := fun same => new (Prod.mk.inj same)
    refine or_congr_left (and_congr_right fun enters => ?_)
    rw [← wired.mem_displaced_iff joinable enters]
    simp [Keep.without, same]

def wireEnds (graph : Graph) : List (OutputRef × InputRef) :=
  graph.wires.map fun (target, wire) => (wire.source, target)

theorem mem_wireEnds : (source, target) ∈ graph.wireEnds ↔ graph.Enters source target := by
  simp only [wireEnds, List.mem_map, Prod.exists, mem_wires, Prod.mk.injEq, Enters]
  constructor
  · rintro ⟨_, wire, ⟨input, hi, hw⟩, rfl, rfl⟩
    exact ⟨input, hi, wire, hw, rfl⟩
  · rintro ⟨input, hi, wire, hw, rfl⟩
    exact ⟨target, wire, ⟨input, hi, hw⟩, rfl, rfl⟩

theorem length_wireEnds (graph : Graph) : graph.wireEnds.length = graph.wireCount := by
  rw [wireEnds, List.length_map, wires, wireCount, List.length_flatMap, List.length_flatMap]
  congr 2
  funext entry
  rw [List.length_flatMap, List.length_flatMap, ← List.zipIdx_map_fst 0 entry.2.inputs,
    List.map_map]
  simp [Function.comp_def]

theorem Wired.nodup_wireEnds (wired : graph.Wired) : graph.wireEnds.Nodup := by
  rw [wireEnds, List.Nodup, List.pairwise_map, wires, List.pairwise_flatMap]
  constructor
  · rintro ⟨id, node⟩ mem
    refine List.pairwise_flatMap.2 ⟨?_, ?_⟩
    · rintro ⟨input, slot⟩ numbered
      have found : graph.input? ⟨id, slot⟩ = some input := by
        rw [input?, mem_live.1 mem]
        exact List.mem_zipIdx_iff_getElem?.1 numbered
      refine List.pairwise_map.2 ((List.pairwise_map.1 (wired.nodupSources found)).imp ?_)
      exact fun differs same => differs (Prod.mk.inj same).1
    · -- wires to different inputs of a node
      have slots : (node.inputs.zipIdx.map (·.2)).Pairwise (· ≠ ·) := by
        rw [List.zipIdx_map_snd]
        exact List.nodup_range'
      refine (List.pairwise_map.1 slots).imp fun differs x hx y hy same => ?_
      obtain ⟨wire, -, rfl⟩ := List.mem_map.1 hx
      obtain ⟨wire', -, rfl⟩ := List.mem_map.1 hy
      exact differs (congrArg InputRef.slot (Prod.mk.inj same).2)
  · -- wires to different nodes
    refine (List.pairwise_map.1 graph.live_nodup).imp fun differs x hx y hy same => ?_
    obtain ⟨_, -, hx⟩ := List.mem_flatMap.1 hx
    obtain ⟨_, -, hy⟩ := List.mem_flatMap.1 hy
    obtain ⟨wire, -, rfl⟩ := List.mem_map.1 hx
    obtain ⟨wire', -, rfl⟩ := List.mem_map.1 hy
    exact differs (congrArg InputRef.node (Prod.mk.inj same).2)

end Graph

namespace Format

variable {placed : Array (Option NodeId)} {graph : Graph} {taken : List Link}

def link? (placed : Array (Option NodeId)) (graph : Graph) (wire : PendingWire) : Option Link := do
  let (source, target) ← ends? placed wire
  match graph.displacedBy source target with
  | .ok _ => some ⟨source, target, (graph.output? source).any (·.port.isSignal)⟩
  | .error _ => none

def takenFrom (placed : Array (Option NodeId)) : Graph → List PendingWire → List Link
  | _, [] => []
  | graph, wire :: wires =>
    (link? placed graph wire).toList ++
      takenFrom placed (connectNext placed (graph, 0) wire).1 wires

/-- Of the wires that were taken the graph has those that stay. -/
structure Linked (taken : List Link) (graph : Graph) : Prop where
  wired : graph.Wired
  enters : ∀ ends : OutputRef × InputRef,
    graph.Enters ends.1 ends.2 ↔ ends ∈ (standing taken).map Link.ends

theorem Linked.wireCount (linked : Linked taken graph) :
    graph.wireCount = (standing taken).length := by
  have same : graph.wireEnds.Perm ((standing taken).map Link.ends) :=
    (List.perm_ext_iff_of_nodup linked.wired.nodup_wireEnds (standing_nodup taken)).2
      fun ends => mem_wireEnds.trans (linked.enters ends)
  rw [← length_wireEnds, same.length_eq, List.length_map]

/-- A wire is put in. -/
theorem Linked.link (linked : Linked taken graph) {source : OutputRef} {target : InputRef}
    {output : Output} {input : Input} (joinable : graph.Joinable source target output input)
    (relays : List Position) :
    Linked (taken ++ [⟨source, target, output.port.isSignal⟩])
      (graph.link source target relays (displaced source target output input)) where
  wired := linked.wired.link joinable relays
  enters ends := by
    rw [linked.wired.enters_link joinable, linked.enters, standing_append_singleton,
      List.map_append, List.mem_append]
    refine or_congr ?_ (by simp [Link.ends, Prod.ext_iff])
    simp only [List.mem_map, List.mem_filter, Bool.not_eq_true', Link.supersedes_eq_false_iff]
    constructor
    · rintro ⟨⟨link, stays, rfl⟩, free⟩
      exact ⟨link, ⟨stays, free⟩, rfl⟩
    · rintro ⟨link, ⟨stays, free⟩, rfl⟩
      exact ⟨⟨link, stays, rfl⟩, free⟩

theorem connectNext_fst (dropped : Nat) (wire : PendingWire) :
    (connectNext placed (graph, dropped) wire).1 = (connectNext placed (graph, 0) wire).1 := by
  unfold connectNext
  dsimp only
  split
  · rfl
  · split <;> rfl

theorem Linked.connectNext (linked : Linked taken graph) (placed : Array (Option NodeId))
    (dropped : Nat) (wire : PendingWire) :
    Linked (taken ++ (link? placed graph wire).toList)
        (connectNext placed (graph, dropped) wire).1 ∧
      (Format.connectNext placed (graph, dropped) wire).2 +
        (link? placed graph wire).toList.length = dropped + 1 := by
  unfold Format.connectNext link?
  cases ends? placed wire with
  | none =>
    rw [← List.append_nil taken] at linked
    exact ⟨linked, rfl⟩
  | some ends =>
    obtain ⟨source, target⟩ := ends
    simp only [Option.bind_eq_bind, Option.bind_some]
    cases displaced : graph.displacedBy source target with
    | error _ =>
      rw [← List.append_nil taken] at linked
      exact ⟨linked, rfl⟩
    | ok others =>
      obtain ⟨output, input, joinable, rfl⟩ := joinable_of_displacedBy displaced
      simp only [joinable.outputAt, Option.any_some]
      exact ⟨linked.link joinable _, rfl⟩

theorem Linked.connectAll (linked : Linked taken graph) (placed : Array (Option NodeId))
    (dropped : Nat) (wires : List PendingWire) :
    Linked (taken ++ takenFrom placed graph wires)
        (wires.foldl (Format.connectNext placed) (graph, dropped)).1 ∧
      (wires.foldl (Format.connectNext placed) (graph, dropped)).2 +
        (takenFrom placed graph wires).length = dropped + wires.length := by
  induction wires generalizing graph taken dropped with
  | nil =>
    rw [← List.append_nil taken] at linked
    exact ⟨linked, rfl⟩
  | cons wire wires ih =>
    obtain ⟨next, counted⟩ := linked.connectNext placed dropped wire
    obtain ⟨last, rest⟩ := ih next (Format.connectNext placed (graph, dropped) wire).2
    rw [Prod.mk.eta] at last rest
    rw [List.foldl_cons, takenFrom, ← List.append_assoc, ← connectNext_fst dropped,
      List.length_append, List.length_cons]
    exact ⟨last, by omega⟩

def readDefinitions : Decode Graph := do
  let graph ← Decode.iterate readSchema (← Decode.count) .empty
  Decode.iterate readSignature (← Decode.count) graph

def readRecords : Decode (List NodeRecord) := do
  let _ ← readDefinitions
  Decode.many NodeRecord.decode

def readNodes (registry : Registry) : Decode Loading := do
  let graph ← readDefinitions
  Decode.iterate (Loading.readNext registry) (← Decode.count) { graph }

/-- The wires in the table of nodes of a file, after the given steps. -/
def entriesWith (steps : List Step) (file : Bytes) : Except DecodeError (List PendingWire) := do
  let file ← upgrade steps file
  Decode.result (do
    let _ ← Decode.int32
    return wiresFrom 0 (← readRecords)) file

/-- The wires in the table of nodes of a file that the loader takes, after the given steps. -/
def takenWith (steps : List Step) (registry : Registry) (file : Bytes) :
    Except DecodeError (List Link) := do
  let file ← upgrade steps file
  Decode.result (do
    let _ ← Decode.int32
    let loading ← readNodes registry
    return takenFrom loading.placed loading.graph loading.pending.toList) file

variable {registry : Registry}

theorem runAt_readNode (registry : Registry) (graph : Graph) (record : NodeRecord) (c : Cursor) :
    ((readNode registry graph record).runAt c).2 = c := by
  have within {α β : Type} (bytes : Bytes) (read : Decode α) (next : α → Decode β)
      (still : ∀ a, ((next a).runAt c).2 = c) :
      ((Decode.within bytes read >>= next).runAt c).2 = c := by
    rw [runAt_bind, Decode.within]
    cases read.result bytes with
    | error _ => rfl
    | ok a => exact still a
  unfold readNode
  split
  · split
    · rfl
    · refine within _ _ _ ?_
      rintro ⟨insets, config⟩
      dsimp only
      split <;> rfl
  · split
    · rfl
    · refine within _ _ _ fun insets => ?_
      split <;> rfl

variable {loading last : Loading} {c c' : Cursor}

theorem Loading.pending_of_readNext (run : (loading.readNext registry).runAt c = (.ok last, c')) :
    ∃ record, NodeRecord.decode.runAt c = (.ok record, c') ∧
      last.placed.size = loading.placed.size + 1 ∧
      last.pending.toList = loading.pending.toList ++ wiresFrom loading.placed.size [record] := by
  obtain ⟨record, middle, decoded, run⟩ := runAt_bind_eq_ok_iff.1 run
  obtain ⟨node?, behind, read, run⟩ := runAt_bind_eq_ok_iff.1 run
  have still := runAt_readNode registry loading.graph record middle
  rw [read] at still
  simp only [runAt_pure, Prod.mk.injEq, Except.ok.injEq] at run still
  obtain ⟨rfl, rfl⟩ := run
  subst still
  refine ⟨record, decoded, ?_, ?_⟩ <;> cases node? <;> simp [Loading.place, wiresFrom]

theorem wiresFrom_cons (first : Nat) (record : NodeRecord) (records : List NodeRecord) :
    wiresFrom first (record :: records) =
      wiresFrom first [record] ++ wiresFrom (first + 1) records := by
  simp [wiresFrom]

theorem Loading.pending_of_iterate {n : Nat}
    (run : (Decode.iterate (Loading.readNext registry) n loading).runAt c = (.ok last, c'))
    (done : List NodeRecord) : ∃ records,
      (Decode.iterate (fun done => do return (← NodeRecord.decode) :: done) n done).runAt c =
          (.ok (records.reverse ++ done), c') ∧
        last.pending.toList = loading.pending.toList ++ wiresFrom loading.placed.size records := by
  induction n generalizing loading c done with
  | zero =>
    simp only [Decode.iterate, runAt_pure, Prod.mk.injEq, Except.ok.injEq] at run
    obtain ⟨rfl, rfl⟩ := run
    exact ⟨[], rfl, by simp [wiresFrom]⟩
  | succ n ih =>
    rw [iterate_succ] at run ⊢
    obtain ⟨next, middle, first, run⟩ := runAt_bind_eq_ok_iff.1 run
    obtain ⟨record, decoded, size, pending⟩ := pending_of_readNext first
    obtain ⟨records, rest, pending'⟩ := ih run (record :: done)
    refine ⟨record :: records, runAt_bind_eq_ok_iff.2 ⟨record :: done, middle, ?_, ?_⟩, ?_⟩
    · exact runAt_bind_eq_ok_iff.2 ⟨record, middle, decoded, rfl⟩
    · rw [rest, List.reverse_cons, List.append_assoc, List.singleton_append]
    · rw [pending', pending, size, wiresFrom_cons _ record records, List.append_assoc]

theorem readRecords_of_readNodes (run : (readNodes registry).runAt c = (.ok last, c')) :
    ∃ records, readRecords.runAt c = (.ok records, c') ∧
      last.pending.toList = wiresFrom 0 records := by
  obtain ⟨graph, behind, definitions, run⟩ := runAt_bind_eq_ok_iff.1 run
  obtain ⟨n, start, counted, run⟩ := runAt_bind_eq_ok_iff.1 run
  obtain ⟨records, decoded, pending⟩ := Loading.pending_of_iterate run []
  refine ⟨records, runAt_bind_eq_ok_iff.2 ⟨graph, behind, definitions, ?_⟩, pending⟩
  refine runAt_bind_eq_ok_iff.2 ⟨n, start, counted, runAt_bind_eq_ok_iff.2 ⟨_, c', decoded, ?_⟩⟩
  rw [List.append_nil, List.reverse_reverse]
  rfl

end Format

namespace Graph

variable {graph next : Graph} {node : Node} {source : OutputRef} {target : InputRef}

theorem enters_push (inputs : ∀ input ∈ node.inputs, input.wires = []) :
    (graph.push node).2.Enters source target ↔ graph.Enters source target := by
  constructor
  · rintro ⟨input, hi, wire, hw, rfl⟩
    rcases input?_push_cases inputs hi with hi | none
    · exact ⟨input, hi, wire, hw, rfl⟩
    · simp [none] at hw
  · rintro ⟨input, hi, wire, hw, rfl⟩
    exact ⟨input, input?_push_of_some hi, wire, hw, rfl⟩

theorem enters_of_setInset {slot : InputRef} {value : Option Value}
    (accepted : graph.setInset slot value = .ok next) (enters : next.Enters source target) :
    graph.Enters source target := by
  obtain ⟨input, inputAt, -, rfl⟩ := setInset_eq_ok accepted
  obtain ⟨new, hnew, wire, hw, rfl⟩ := enters
  rw [input?_modifyInput] at hnew
  split at hnew
  · subst target
    obtain ⟨old, hold, rfl⟩ := Option.map_eq_some_iff.1 hnew
    exact ⟨old, hold, wire, hw, rfl⟩
  · exact ⟨new, hnew, wire, hw, rfl⟩

theorem not_enters_empty (source : OutputRef) (target : InputRef) :
    ¬Graph.empty.Enters source target := by
  simp [Enters, input?, node?, Graph.empty]

theorem enters_completeDefinitions (completed : graph.completeDefinitions = .ok next)
    (source : OutputRef) (target : InputRef) :
    next.Enters source target ↔ graph.Enters source target := by
  refine completeDefinitions_keeps
    (motive := fun next => next.Enters source target ↔ graph.Enters source target)
    (fun same added => ?_) (fun _ _ same => same) (fun _ _ same => same) Iff.rfl completed
  obtain ⟨ports, -, -, rfl⟩ := addDefined_eq_ok_iff.1 added
  exact (enters_push (by simp [Node.ofPorts])).trans same

end Graph

namespace Format

variable {registry : Registry} {graph next : Graph}

theorem enters_of_setInsets {id : NodeId} {source : OutputRef} {target : InputRef}
    {insets : List (Nat × Value)}
    (enters : (insets.foldl (setInsetIfFits id) graph).Enters source target) :
    graph.Enters source target := by
  induction insets generalizing graph with
  | nil => exact enters
  | cons inset insets ih =>
    have before := ih enters
    unfold setInsetIfFits at before
    split at before
    · exact enters_of_setInset ‹_› before
    · exact before

/-- A graph that is put together without wires. -/
structure Unwired (registry : Registry) (graph : Graph) : Prop where
  assembled : Assembled registry graph
  enters : ∀ source target, ¬graph.Enters source target

theorem Unwired.linked (unwired : Unwired registry graph) : Linked [] graph where
  wired := unwired.assembled.sound.wired
  enters ends := iff_of_false (unwired.enters _ _) (by simp [standing])

theorem Unwired.readSchema (unwired : Unwired registry graph)
    (given : Gives (readSchema graph) next) : Unwired registry next := by
  refine ⟨unwired.assembled.readSchema given, ?_⟩
  obtain ⟨name, -, given⟩ := given.of_bind
  obtain ⟨n, -, given⟩ := given.of_bind
  obtain ⟨fields, -, given⟩ := given.of_bind
  split at given
  · rename_i declared
    obtain rfl := given.of_pure
    obtain ⟨-, -, rfl⟩ := declareStruct_eq_ok_iff.1 declared
    exact unwired.enters
  · exact absurd given Gives.not_throw

theorem Unwired.readSignature (unwired : Unwired registry graph)
    (given : Gives (readSignature graph) next) : Unwired registry next := by
  refine ⟨unwired.assembled.readSignature given, ?_⟩
  obtain ⟨name, -, given⟩ := given.of_bind
  obtain ⟨inputs, -, given⟩ := given.of_bind
  obtain ⟨outputs, -, given⟩ := given.of_bind
  split at given
  · rename_i declared
    obtain rfl := given.of_pure
    obtain ⟨-, -, rfl⟩ := declareFunction_eq_ok_iff.1 declared
    exact unwired.enters
  · exact absurd given Gives.not_throw

theorem Unwired.readNext {loading last : Loading} (unwired : Unwired registry loading.graph)
    (given : Gives (loading.readNext registry) last) : Unwired registry last.graph := by
  refine ⟨unwired.assembled.readNext given, ?_⟩
  obtain ⟨record, -, given⟩ := given.of_bind
  obtain ⟨node?, read, given⟩ := given.of_bind
  obtain rfl := given.of_pure
  cases node? with
  | none => exact unwired.enters
  | some placed =>
    obtain ⟨node, insets⟩ := placed
    obtain ⟨⟨kind, config, ports, position, rfl, -⟩, -⟩ := readNode_placeable read
    intro source target enters
    exact unwired.enters source target
      ((enters_push (by simp [Node.ofPorts])).1 (enters_of_setInsets enters))

theorem unwired_of_readNodes {loading : Loading} (given : Gives (readNodes registry) loading) :
    Unwired registry loading.graph := by
  obtain ⟨graph, definitions, given⟩ := given.of_bind
  obtain ⟨n, -, nodes⟩ := given.of_bind
  obtain ⟨k, -, definitions⟩ := definitions.of_bind
  obtain ⟨declared, structs, definitions⟩ := definitions.of_bind
  obtain ⟨m, -, functions⟩ := definitions.of_bind
  have structs := structs.of_iterate (Unwired registry)
    (fun _ _ unwired given => unwired.readSchema given) ⟨.empty, not_enters_empty⟩
  have functions := functions.of_iterate (Unwired registry)
    (fun _ _ unwired given => unwired.readSignature given) structs
  exact nodes.of_iterate (fun loading => Unwired registry loading.graph)
    (fun _ _ unwired given => unwired.readNext given) functions

theorem readNodes_of_readTables {read : Graph × Nat × Nat} {c c' : Cursor}
    (run : (readTables registry).runAt c = (.ok read, c')) :
    ∃ loading, (readNodes registry).runAt c = (.ok loading, c') ∧
      ∃ linked, loading.pending.toList.foldl (connectNext loading.placed) (loading.graph, 0) =
          (linked, read.2.2) ∧ linked.completeDefinitions = .ok read.1 := by
  obtain ⟨k, c₁, structs, run⟩ := runAt_bind_eq_ok_iff.1 run
  obtain ⟨declared, c₂, readStructs, run⟩ := runAt_bind_eq_ok_iff.1 run
  obtain ⟨m, c₃, functions, run⟩ := runAt_bind_eq_ok_iff.1 run
  obtain ⟨graph, c₄, readFunctions, run⟩ := runAt_bind_eq_ok_iff.1 run
  obtain ⟨n, c₅, counted, run⟩ := runAt_bind_eq_ok_iff.1 run
  obtain ⟨loading, c₆, loaded, run⟩ := runAt_bind_eq_ok_iff.1 run
  have definitions : readDefinitions.runAt c = (.ok graph, c₄) :=
    runAt_bind_eq_ok_iff.2 ⟨k, c₁, structs, runAt_bind_eq_ok_iff.2 ⟨declared, c₂, readStructs,
      runAt_bind_eq_ok_iff.2 ⟨m, c₃, functions, readFunctions⟩⟩⟩
  have nodes : (readNodes registry).runAt c = (.ok loading, c₆) :=
    runAt_bind_eq_ok_iff.2 ⟨graph, c₄, definitions,
      runAt_bind_eq_ok_iff.2 ⟨n, c₅, counted, loaded⟩⟩
  dsimp only at run
  split at run
  · rename_i completed done
    simp only [runAt_pure, Prod.mk.injEq, Except.ok.injEq] at run
    obtain ⟨rfl, rfl⟩ := run
    refine ⟨loading, nodes, _, ?_, done⟩
    rw [Array.foldl_toList]
  · simp at run

theorem accounts_of_readTables {read : Graph × Nat × Nat} {c c' : Cursor}
    (run : (readTables registry).runAt c = (.ok read, c')) :
    ∃ loading records, (readNodes registry).runAt c = (.ok loading, c') ∧
      readRecords.runAt c = (.ok records, c') ∧
      loading.pending.toList = wiresFrom 0 records ∧
      (takenFrom loading.placed loading.graph loading.pending.toList).length + read.2.2 =
        (wiresFrom 0 records).length ∧
      ∀ ends : OutputRef × InputRef, read.1.Enters ends.1 ends.2 ↔
        ends ∈ (standing (takenFrom loading.placed loading.graph
          loading.pending.toList)).map Link.ends := by
  obtain ⟨loading, nodes, last, connected, completed⟩ := readNodes_of_readTables run
  obtain ⟨records, decoded, pending⟩ := readRecords_of_readNodes nodes
  have unwired := unwired_of_readNodes ⟨c, c', nodes⟩
  obtain ⟨linked, counted⟩ :=
    unwired.linked.connectAll loading.placed 0 loading.pending.toList
  rw [connected] at linked counted
  refine ⟨loading, records, nodes, decoded, pending, ?_, fun ends => ?_⟩
  · rw [← pending, Nat.add_comm]
    exact counted.trans (Nat.zero_add _)
  · exact (enters_completeDefinitions completed _ _).trans (linked.enters ends)

theorem runAt_of_decodeWith {steps : List Step} {file : Bytes} {loaded : Loaded}
    (accepted : decodeWith steps registry file = .ok loaded) :
    ∃ upgraded reached start read behind, upgrade steps file = .ok upgraded ∧
      Decode.int32.runAt (Cursor.ofBytes upgraded) = (.ok reached, start) ∧
      (readTables registry).runAt start = (.ok read, behind) ∧
      loaded.graph = read.1 ∧ loaded.droppedWires = read.2.2 := by
  obtain ⟨version, -, accepted⟩ := Accepted.bind_iff.1 accepted
  split at accepted
  · exact absurd (Accepted.bind_iff.1 accepted) (by simp)
  obtain ⟨upgraded, stepped, accepted⟩ := Accepted.bind_iff.1 accepted
  obtain ⟨reached, start, layout, run⟩ :=
    runAt_bind_eq_ok_iff.1 (Prod.ext accepted rfl : _ = (Except.ok loaded, _))
  split at run
  · obtain ⟨_, _, thrown, -⟩ := runAt_bind_eq_ok_iff.1 run
    simp at thrown
  obtain ⟨read, behind, tables, made⟩ := runAt_bind_eq_ok_iff.1 run
  simp only [runAt_pure, Prod.mk.injEq, Except.ok.injEq] at made
  obtain ⟨rfl, -⟩ := made
  exact ⟨upgraded, reached, start, read, behind, stepped, layout, tables, rfl, rfl⟩

/-- Of the wires in the table of a file those are counted that are left out, and the graph has as
many as stay of the others. So the count accounts for all wires exactly if none that is put in takes
the place of one before it. -/
theorem decodeWith_accounts {steps : List Step} {file : Bytes} {loaded : Loaded}
    (accepted : decodeWith steps registry file = .ok loaded) :
    ∃ entries taken, entriesWith steps file = .ok entries ∧
      takenWith steps registry file = .ok taken ∧
      entries.length = taken.length + loaded.droppedWires ∧
      loaded.graph.wireCount = (standing taken).length ∧
      (entries.length = loaded.graph.wireCount + loaded.droppedWires ↔
        taken.Pairwise fun earlier later => later.supersedes earlier = false) := by
  have wired := (decodeWith_wellFormed accepted).wired
  obtain ⟨upgraded, reached, start, read, behind, stepped, layout, tables, same, dropped⟩ :=
    runAt_of_decodeWith accepted
  obtain ⟨loading, records, nodes, decoded, pending, counted, enters⟩ :=
    accounts_of_readTables tables
  have linked : Linked (takenFrom loading.placed loading.graph loading.pending.toList)
      loaded.graph := by
    rw [← same] at enters
    exact ⟨wired, enters⟩
  rw [← dropped] at counted
  refine ⟨wiresFrom 0 records, _, ?_, ?_, counted.symm, linked.wireCount, ?_⟩
  · exact Accepted.bind_iff.2 ⟨upgraded, stepped, congrArg Prod.fst (runAt_bind_eq_ok_iff.2
      ⟨reached, start, layout, runAt_bind_eq_ok_iff.2 ⟨records, behind, decoded, rfl⟩⟩)⟩
  · exact Accepted.bind_iff.2 ⟨upgraded, stepped, congrArg Prod.fst (runAt_bind_eq_ok_iff.2
      ⟨reached, start, layout, runAt_bind_eq_ok_iff.2 ⟨loading, behind, nodes, rfl⟩⟩)⟩
  · rw [linked.wireCount, ← standing_length_eq_iff, ← counted, dropped, Nat.add_right_cancel_iff,
      eq_comm]

/-- A file with three sums, the last of which has the values of the given nodes as one summand. -/
def summandFile (sources : List Nat) : Bytes :=
  let sum (inputs : List (List WireRecord)) : NodeRecord :=
    { name := "math/Add", kind := 0, payload := encodeInsets [], position := .zero, inputs }
  Tables.file current ⟨[], [], [sum [], sum [], sum [sources.map (⟨·, 0, []⟩)]]⟩

theorem three_summands_accounts : ∃ loaded entries taken,
    decode Registry.builtin (summandFile [0, 3, 1]) = .ok loaded ∧
      loaded.droppedWires = 1 ∧ loaded.graph.wireCount = 1 ∧
      entriesWith Step.all (summandFile [0, 3, 1]) = .ok entries ∧ entries.length = 3 ∧
      takenWith Step.all Registry.builtin (summandFile [0, 3, 1]) = .ok taken ∧
      taken.length = 2 ∧ (standing taken).length = 1 := by
  have facts : ∃ loaded ∈ (decode Registry.builtin (summandFile [0, 3, 1])).toOption,
      loaded.droppedWires = 1 ∧ loaded.graph.wireCount = 1 := by decide +kernel
  have length : (entriesWith Step.all (summandFile [0, 3, 1])).toOption.map List.length =
      some 3 := by decide +kernel
  obtain ⟨loaded, decoded, dropped, one⟩ := facts
  have decoded := Accepted.toOption_eq_some_iff.1 decoded
  obtain ⟨entries, taken, listed, takes, counted, stay, -⟩ := decodeWith_accounts decoded
  rw [listed] at length
  have length : entries.length = 3 := Option.some.inj length
  have two : taken.length = 2 := by omega
  exact ⟨loaded, entries, taken, decoded, dropped, one, listed, length, takes, two,
    stay.symm.trans one⟩

/-- Of two summands the second takes the place of the first, which is not counted. -/
theorem two_summands_unaccounted : ∃ loaded entries,
    decode Registry.builtin (summandFile [0, 1]) = .ok loaded ∧
      entriesWith Step.all (summandFile [0, 1]) = .ok entries ∧
      entries.length ≠ loaded.graph.wireCount + loaded.droppedWires := by
  have facts : ∃ loaded ∈ (decode Registry.builtin (summandFile [0, 1])).toOption,
      ∃ entries ∈ (entriesWith Step.all (summandFile [0, 1])).toOption,
        entries.length ≠ loaded.graph.wireCount + loaded.droppedWires := by decide +kernel
  obtain ⟨loaded, decoded, entries, listed, fewer⟩ := facts
  exact ⟨loaded, entries, Accepted.toOption_eq_some_iff.1 decoded,
    Accepted.toOption_eq_some_iff.1 listed, fewer⟩

end Format

end NodeScript
