import NodeScript.Proofs.Format.Upgraded
import NodeScript.Proofs.Graph.Boundaries
import NodeScript.Proofs.Run.Collected
import NodeScript.Proofs.Run.Ends
import NodeScript.Proofs.Run.Upstream

/-!
Values that a call left behind are those that are computed where it left none. Main statement:
`Graph.IsScript.captures`.
-/

set_option autoImplicit false
set_option relaxedAutoImplicit false

namespace NodeScript

open Run Relation Context

namespace Run

/-- With fuel enough a computation has a result. -/
def ComesTo {α : Type} (run : Nat → Run α) (ctx : Context) (result : Except Stop α) : Prop :=
  ∃ fuel, ∀ more, fuel ≤ more → ((run more).runAt ctx).1 = result

/-- What was captured is what is computed, and nothing if a value is missing for that. -/
structure Captures (value? : Option Value) (run : Nat → Run Value) (ctx : Context) : Prop where
  given : ∀ value, value? = some value ↔ ComesTo run ctx (.ok value)
  missing : value? = none ↔
    ∃ node input, ComesTo run ctx (.error (.fault (.missingValue node input)))

variable {α : Type} {run : Nat → Run α} {ctx : Context} {result result' : Except Stop α}

theorem ComesTo.unique (comes : ComesTo run ctx result) (comes' : ComesTo run ctx result') :
    result = result' := by
  obtain ⟨fuel, same⟩ := comes
  obtain ⟨fuel', same'⟩ := comes'
  exact (same _ (Nat.le_max_left fuel fuel')).symm.trans (same' _ (Nat.le_max_right fuel fuel'))

theorem ComesTo.shift {run' : Nat → Run α} {ctx' : Context} (comes : ComesTo run ctx result)
    (extra : Nat)
    (same : ∀ fuel, ((run' (fuel + extra)).runAt ctx').1 = ((run fuel).runAt ctx).1) :
    ComesTo run' ctx' result := by
  obtain ⟨fuel, enough⟩ := comes
  refine ⟨fuel + extra, fun more less => ?_⟩
  obtain ⟨rest, rfl⟩ := Nat.exists_eq_add_of_le less
  rw [Nat.add_right_comm, same]
  exact enough _ (Nat.le_add_right fuel rest)

theorem ComesTo.of_follows {fuel : Nat}
    (follows : ∀ more, fuel ≤ more → Follows (· = .outOfFuel) (run fuel) (run more))
    (ended : result ≠ .error .outOfFuel) (ran : ((run fuel).runAt ctx).1 = result) :
    ComesTo run ctx result := by
  refine ⟨fuel, fun more enough => ?_⟩
  rw [← ran] at ended
  rw [(follows more enough).of_ended ended, ran]

theorem ComesTo.inCall {machine : Machine} {call : NodeId} {run : Nat → Run Value}
    {result : Except Stop Value} (shallow : ctx.depth ≤ machine.maxCallDepth)
    (comes : ComesTo run (ctx.push { call := some call }) result) :
    ComesTo (fun fuel => machine.inCall call (run fuel)) ctx result := by
  refine comes.shift 0 fun fuel => ?_
  rw [Machine.runAt_inCall, if_neg (Nat.not_lt.2 shallow)]
  rfl

theorem captures_some {run : Nat → Run Value} {value : Value}
    (comes : ComesTo run ctx (.ok value)) : Captures (some value) run ctx where
  given other := by
    constructor
    · intro same
      obtain rfl := Option.some.inj same
      exact comes
    · intro comes'
      exact congrArg some (Except.ok.inj (comes.unique comes'))
  missing := iff_of_false nofun fun ⟨_, _, comes'⟩ => nomatch comes.unique comes'

theorem captures_none {run : Nat → Run Value} {node : NodeId} {input : String}
    (comes : ComesTo run ctx (.error (.fault (.missingValue node input)))) :
    Captures none run ctx where
  given _ := iff_of_false nofun fun comes' => nomatch comes.unique comes'
  missing := iff_of_true rfl ⟨node, input, comes⟩

theorem orMissing_eq_ok {run : Run α} {value? : Option α} {after : Context}
    (read : run.orMissing.runAt ctx = (.ok value?, after)) :
    (∃ value, value? = some value ∧ (run.runAt ctx).1 = .ok value) ∨
      value? = none ∧ ∃ node input,
        (run.runAt ctx).1 = .error (.fault (.missingValue node input)) := by
  rw [runAt_orMissing, Prod.mk.injEq] at read
  rcases caught_cases (run.runAt ctx).1 with
    ⟨value, ended, given⟩ | ⟨node, input, ended, given⟩ | ⟨stop, -, -, given⟩
  · rw [given] at read
    exact .inl ⟨value, (Except.ok.inj read.1).symm, ended⟩
  · rw [given] at read
    exact .inr ⟨(Except.ok.inj read.1).symm, node, input, ended⟩
  · rw [given] at read
    simp at read

end Run

/-- A context in which a call has left nothing behind in the innermost frame. -/
def Context.forgetting (call : NodeId) (ctx : Context) : Context :=
  { ctx with top := { ctx.top with
    callResults := ctx.top.callResults.filter fun entry => entry.1 != call } }

theorem Machine.output_of_boundaryNodes {machine : Machine} {call entry exit : NodeId}
    {f : FunctionId} (found : machine.boundaryNodes call f = pure (entry, exit)) :
    (machine.graph.function? f).bind (·.output) = some exit := by
  have result (ctx : Context) : ((machine.boundaryNodes call f).runAt ctx).1 =
      .ok (entry, exit) := by rw [found, runAt_pure]
  unfold boundaryNodes at result
  split at result
  · rename_i here
    rw [here]
    exact congrArg some (Prod.mk.inj (Except.ok.inj (result (.ofTrigger {})))).2
  · simpa using result (.ofTrigger {})

def NodeKind.asksFrame : NodeKind → Bool
  | builtin type => Catalog.variableTypes.contains type
  | call _ => true
  | functionInput _ | functionOutput _ | construct _ => false

namespace Graph

variable {graph : Graph} {ctx before : Context} {call : NodeId} {target : InputRef}

/-- An input is computed from no node that gives out what the frame holds. -/
def Frameless (graph : Graph) (target : InputRef) : Prop :=
  ∀ id ∈ (Basin.above graph target).nodes, ∀ kind, graph.HasKind id kind → kind.asksFrame = false

theorem frameless_of_closed {ids : List NodeId}
    (feeds : ∀ other ∈ graph.suppliers target.node, other ∈ ids)
    (closed : ∀ id ∈ ids, ∀ other ∈ graph.suppliers id, other ∈ ids)
    (plain : ∀ id ∈ ids, ∀ node ∈ graph.node? id, node.kind.asksFrame = false) :
    graph.Frameless target := by
  rintro id ⟨first, fed, path⟩
  have mem : id ∈ ids := by
    induction path with
    | refl => exact feeds first (reads_iff_fedBy.2 ⟨target.slot, fed⟩)
    | tail _ reads ih => exact closed _ ih _ reads
  rintro kind has
  obtain ⟨node, here, rfl⟩ := hasKind_iff.1 has
  exact plain id mem node here

theorem sameIn_forgetting (acyclic : graph.Acyclic) (bottom : ctx.outermost.call = none) :
    graph.SameFrames (.below graph call :: ctx.callers.map fun _ => .all graph) ctx.frames
      (ctx.forgetting call).frames := by
  have same : ctx.top.SameIn (Basin.below graph call) (ctx.forgetting call).top := by
    refine ⟨rfl, fun id path f _ => ?_, fun _ _ _ => rfl⟩
    have apart : id ≠ call := by
      rintro rfl
      exact acyclic id path
    show (ctx.top.callResults.filter _).lookup id = _
    rw [Assoc.lookup_filter (fun other => other != call), if_pos (by simpa using apart)]
  exact .of_top same ctx.callers (calls_getLast? bottom)

theorem sameIn_opened (acyclic : graph.Acyclic) (bottom : ctx.outermost.call = none)
    (frameless : graph.Frameless target)
    (kept : Kept True (ctx.push { call := some call }) before) (steps : Nat) :
    before.SameIn (.above graph target :: .below graph call :: ctx.callers.map fun _ => .all graph)
      ({ ctx.forgetting call with steps }.push { call := some call }) := by
  have opened : before.top.call = some call := kept.call
  have callers : before.callers = ctx.frames := kept.callers
  refine ⟨kept.trigger.symm, ?_⟩
  rw [frames, callers]
  refine .inner ⟨opened.symm, fun id mem f calls => ?_, fun id mem holds => ?_⟩
    (fun other same id reads => ?_) (sameIn_forgetting acyclic bottom)
  · exact absurd (frameless id mem _ calls) Bool.noConfusion
  · obtain ⟨type, listed, has⟩ := holds
    have apart : Catalog.variableTypes.contains type = false := frameless id mem _ has
    simp [listed] at apart
  · obtain rfl : call = other := Option.some.inj (opened.symm.trans same)
    exact .single reads

variable {limit fuel : Nat}

theorem WellFormed.runAt_evaluate_call {admits : Admits} (formed : graph.WellFormed admits)
    {f : FunctionId} (calls : graph.HasKind call (.call f)) {own : NodeId}
    (owned : (graph.function? f).bind (·.output) = some own) {slot : Nat} {port : Port}
    (found : graph.outputPort? ⟨call, slot⟩ = some port) (value : port.isSignal = false)
    (empty : ctx.top.callResults.lookup call = none) :
    let machine := graph.machine .builtin limit
    ((machine.evaluate (fuel + 1) ⟨call, slot⟩).runAt ctx) =
      (machine.inCall call (machine.pull fuel ⟨own, slot⟩)).runAt
        { ctx with steps := ctx.steps + 1 } := by
  intro machine
  obtain ⟨entry, exit, boundaries, -⟩ := formed.boundaryNodes .builtin limit calls
  obtain rfl : exit = own :=
    Option.some.inj ((Machine.output_of_boundaryNodes boundaries).symm.trans owned)
  obtain ⟨node, here, kind⟩ := hasKind_iff.1 calls
  rw [outputPort?_eq, output?, here, Option.bind_some, Option.map_eq_some_iff] at found
  obtain ⟨output, place, rfl⟩ := found
  show (machine.evaluateWith fuel (machine.parts fuel) ⟨call, slot⟩).runAt ctx = _
  rw [Machine.evaluateWith_eq, show machine.graph.node? call = some node from here]
  dsimp only
  rw [place, Option.all_some, value, if_neg Bool.false_ne_true, runAt_bind, kind]
  show (machine.callOutput (machine.parts fuel) ⟨call, slot⟩ f).runAt
    { ctx with steps := ctx.steps + 1 } = _
  rw [Machine.callOutput_eq, runAt_bind, runAt_get]
  dsimp only
  rw [empty, Option.bind_none, boundaries]
  rfl

section

variable {admits : Admits} (formed : graph.WellFormed admits)
  (undrawn : ∀ id, ¬graph.HasKind id (.builtin Catalog.random.id))
  (bottom : ctx.outermost.call = none) (shallow : ctx.depth ≤ limit)
  (frameless : graph.Frameless target) (kept : Kept True (ctx.push { call := some call }) before)
  {result : Except Stop Value} (ended : result ≠ .error .outOfFuel)
  (was : (((graph.machine .builtin limit).pull fuel target).runAt before).1 = result)
include formed undrawn bottom shallow frameless kept ended was

theorem WellFormed.comesTo_inCall (steps : Nat) :
    let machine := graph.machine .builtin limit
    ComesTo (fun fuel => machine.inCall call (machine.pull fuel target))
      { ctx.forgetting call with steps } result := by
  intro machine
  have localTo : (machine.parts fuel).Local graph := Machine.parts_local formed.wired undrawn fuel
  obtain ⟨same, -⟩ := localTo.pull (.above graph target) _ target
    (fun other fed => ⟨other, fed, .refl⟩) before _
    (sameIn_opened formed.acyclic bottom frameless kept steps)
  have comes : ComesTo (fun fuel => machine.pull fuel target) _ result :=
    .of_follows (fun _ enough => (graph.parts_follow_more enough).pull _ trivial) ended
      (same.trans was)
  exact comes.inCall shallow

theorem WellFormed.comesTo_evaluate {f : FunctionId} (calls : graph.HasKind call (.call f))
    (owned : (graph.function? f).bind (·.output) = some target.node) {port : Port}
    (found : graph.outputPort? ⟨call, target.slot⟩ = some port) (value : port.isSignal = false) :
    ComesTo (fun fuel => (graph.machine .builtin limit).evaluate fuel ⟨call, target.slot⟩)
      (ctx.forgetting call) result := by
  have empty : (ctx.forgetting call).top.callResults.lookup call = none := by
    show (ctx.top.callResults.filter _).lookup call = _
    rw [Assoc.lookup_filter (fun other => other != call), if_neg (by simp)]
  have comes := formed.comesTo_inCall undrawn bottom shallow frameless kept ended was
    (ctx.steps + 1)
  refine comes.shift 1 fun fuel => ?_
  rw [formed.runAt_evaluate_call calls owned found value empty]
  rfl

end

end Graph

/-- What a call through which control went on has left behind of an output is what is computed for
an output of a call where it has left nothing behind. -/
theorem Graph.IsScript.captures {graph : Graph} (script : graph.IsScript .builtin)
    (undrawn : ∀ id, ¬graph.HasKind id (.builtin Catalog.random.id)) {call : NodeId}
    {f : FunctionId} (calls : graph.HasKind call (.call f)) (maxCallDepth fuel slot : Nat)
    {ctx after : Context} (bottom : ctx.outermost.call = none) {exit : Nat}
    (returned : ((graph.machine .builtin maxCallDepth).execute fuel ⟨call, slot⟩).runAt ctx =
      (.ok (.next exit), after)) :
    let machine := graph.machine .builtin maxCallDepth
    ∃ boundary results, graph.HasKind boundary (.functionOutput f) ∧
      (graph.SoleBoundaries → (graph.function? f).bind (·.output) = some boundary) ∧
      after.top.callResults.lookup call = some results ∧
      ∀ output port, graph.outputPort? ⟨call, output⟩ = some port → port.isSignal = false →
        graph.Frameless ⟨boundary, output⟩ → ∃ value?, results[output]? = some value? ∧
          Captures value? (fun fuel => machine.inCall call (machine.pull fuel ⟨boundary, output⟩))
            (ctx.forgetting call) ∧
          ((graph.function? f).bind (·.output) = some boundary →
            Captures value? (fun fuel => machine.evaluate fuel ⟨call, output⟩)
              (ctx.forgetting call)) := by
  intro machine
  have formed := script.wellFormed
  obtain ⟨shallow, boundary, results, kind, left, collects⟩ :=
    formed.call_collects calls bottom returned
  obtain ⟨entry, own, boundaries, -, kind'⟩ := formed.boundaryNodes .builtin maxCallDepth calls
  have sole (sole : graph.SoleBoundaries) :
      (graph.function? f).bind (·.output) = some boundary := by
    have isBoundary : (NodeKind.functionOutput f).IsBoundary := trivial
    obtain rfl := sole.unique isBoundary kind' kind
    exact Machine.output_of_boundaryNodes boundaries
  refine ⟨boundary, results, kind, sole, left, fun output port found value frameless => ?_⟩
  have inputPort : graph.inputPort? ⟨boundary, output⟩ = some port :=
    (formed.result_ports calls kind output).trans found
  obtain ⟨value?, spent, before, last, given, kept, read⟩ := collects output port inputPort value
  refine ⟨value?, given, ?_⟩
  have fresh {result : Except Stop Value} (ended : result ≠ .error .outOfFuel)
      (was : ((machine.pull spent ⟨boundary, output⟩).runAt before).1 = result) :=
    formed.comesTo_inCall undrawn bottom shallow frameless kept ended was ctx.steps
  have onDemand (owned : (graph.function? f).bind (·.output) = some boundary)
      {result : Except Stop Value} (ended : result ≠ .error .outOfFuel)
      (was : ((machine.pull spent ⟨boundary, output⟩).runAt before).1 = result) :=
    formed.comesTo_evaluate undrawn bottom shallow frameless kept ended was calls owned found value
  rcases orMissing_eq_ok read with ⟨value, rfl, was⟩ | ⟨rfl, node, input, was⟩
  · exact ⟨captures_some (fresh (by simp) was),
      fun owned => captures_some (onDemand owned (by simp) was)⟩
  · exact ⟨captures_none (fresh (by simp) was),
      fun owned => captures_none (onDemand owned (by simp) was)⟩

def Edit.incrementing : List Edit := [
  .defineFunction
    { name := "f", inputs := [("in", .signal), ("x", .number)],
      outputs := [("out", .signal), ("y", .number), ("z", .number)] } .zero,
  .addBuiltin "math/Add" .null .zero,
  .setInset ⟨⟨2⟩, 1⟩ (some (.number 1)),
  .connect ⟨⟨0⟩, 0⟩ ⟨⟨1⟩, 0⟩ [],
  .connect ⟨⟨0⟩, 1⟩ ⟨⟨2⟩, 0⟩ [],
  .connect ⟨⟨2⟩, 0⟩ ⟨⟨1⟩, 1⟩ [],
  .addCall ⟨0⟩ .zero,
  .setInset ⟨⟨3⟩, 1⟩ (some (.number 1))]

/-- The call leaves behind the sum and nothing else, as both outputs are computed. -/
theorem incrementing_captures : ∃ graph,
    Edit.incrementing.foldlM (Edit.apply Registry.builtin) .empty = .ok graph ∧
      let machine := graph.machine .builtin 8
      let ctx := Context.called ⟨3⟩
      ctx.outermost.call = none ∧ graph.HasKind ⟨3⟩ (.call ⟨0⟩) ∧
        ∃ after results sum, (machine.execute 8 ⟨⟨3⟩, 0⟩).runAt ctx = (.ok (.next 0), after) ∧
          after.top.callResults.lookup ⟨3⟩ = some results ∧
          results[1]? = some (some sum) ∧ sum.asNumber? = some 2 ∧
          ComesTo (fun fuel => machine.evaluate fuel ⟨⟨3⟩, 1⟩) (ctx.forgetting ⟨3⟩) (.ok sum) ∧
          results[2]? = some none ∧ ∃ node input,
            ComesTo (fun fuel => machine.evaluate fuel ⟨⟨3⟩, 2⟩) (ctx.forgetting ⟨3⟩)
              (.error (.fault (.missingValue node input))) := by
  have facts : ∃ graph ∈ (Edit.incrementing.foldlM (Edit.apply Registry.builtin) .empty).toOption,
      graph.nodesOfKind (· == .builtin Catalog.random.id) = [] ∧
        (graph.node? ⟨3⟩).any (·.kind == .call ⟨0⟩) ∧
        (graph.function? ⟨0⟩).bind (·.output) = some ⟨1⟩ ∧
        (graph.outputPort? ⟨⟨3⟩, 1⟩).any (!·.isSignal) ∧
        (graph.outputPort? ⟨⟨3⟩, 2⟩).any (!·.isSignal) ∧
        (∀ id ∈ [⟨1⟩, ⟨2⟩, ⟨0⟩], ∀ other ∈ graph.suppliers id, other ∈ [⟨2⟩, ⟨0⟩]) ∧
        (∀ id ∈ [⟨2⟩, ⟨0⟩], ∀ node ∈ graph.node? id, node.kind.asksFrame = false) ∧
        let ran := ((graph.machine .builtin 8).execute 8 ⟨⟨3⟩, 0⟩).runAt (.called ⟨3⟩)
        ran.1 = .ok (.next 0) ∧
          ((ran.2.top.callResults.lookup ⟨3⟩).bind (·[1]?.join)).bind Value.asNumber? = some 2 ∧
          ((ran.2.top.callResults.lookup ⟨3⟩).bind (·[2]?)).map Option.isNone = some true := by
    decide +kernel
  obtain ⟨graph, built, nowhere, kind, own, first, second, closed, plain, went, sum, missing⟩ :=
    facts
  have built := Accepted.toOption_eq_some_iff.1 built
  have script : graph.IsScript .builtin :=
    Reached.foldlM rfl (.first (.inl rfl)) (fun _ _ _ => trivial) built
  have alone : graph.SoleBoundaries :=
    Reached.soleBoundaries (fun _ => id)
      (Reached.foldlM rfl (.first rfl) (fun _ _ _ => trivial) built)
  have calls := Machine.any_kind_iff.1 kind
  rcases ran : ((graph.machine .builtin 8).execute 8 ⟨⟨3⟩, 0⟩).runAt (.called ⟨3⟩) with
    ⟨outcome, after⟩
  rw [ran] at went sum missing
  obtain rfl : outcome = .ok (.next 0) := went
  obtain ⟨boundary, results, -, sole, left, captures⟩ :=
    script.captures (Graph.not_hasKind_of_nodesOfKind nowhere) calls 8 8 0 rfl ran
  obtain rfl : boundary = ⟨1⟩ := Option.some.inj ((sole alone).symm.trans own)
  have frameless (slot : Nat) : graph.Frameless ⟨⟨1⟩, slot⟩ :=
    Graph.frameless_of_closed (closed ⟨1⟩ (by simp))
      (fun id mem => closed id (List.mem_cons_of_mem _ mem)) plain
  obtain ⟨port, found, value⟩ := (Option.any_eq_true _ _).1 first
  obtain ⟨port', found', value'⟩ := (Option.any_eq_true _ _).1 second
  obtain ⟨sum?, given, -, computed⟩ := captures 1 port found (by simpa using value) (frameless 1)
  obtain ⟨other?, given', -, computed'⟩ :=
    captures 2 port' found' (by simpa using value') (frameless 2)
  rw [left, Option.bind_some, given] at sum
  rw [left, Option.bind_some, given'] at missing
  obtain ⟨value, rfl, two⟩ := Option.bind_eq_some_iff.1 sum
  obtain rfl : other? = none := by simpa using missing
  exact ⟨graph, built, rfl, calls, after, results, value, ran, left, given, two,
    ((computed own).given value).1 rfl, given', (computed' own).missing.1 rfl⟩

/-- A file with a function of two ends. The body leads to the one that the function does not own. -/
def Format.twoEndedFile : Bytes :=
  let node (name : String) (kind : UInt8) (payload : Bytes)
      (inputs : List (List (Nat × Nat))) : NodeRecord :=
    { name, kind, payload, position := .zero, inputs := inputs.map (·.map fun (source, output) =>
        ⟨source, output, []⟩) }
  let exit (value : Double) (inputs : List (List (Nat × Nat))) : NodeRecord :=
    node "f" 3 (encodeInsets [(1, .number value)]) inputs
  Tables.file current ⟨[],
    [{ name := "f", inputs := [("in", .signal)], outputs := [("out", .signal), ("y", .number)] }],
    [node "event/On" 0 (encodeInsets [] ++ Encode.text "go") [],
      node "f" 1 (encodeInsets []) [[(0, 0)]],
      node "f" 2 (encodeInsets []) [],
      exit 1 [[], []],
      exit 2 [[(2, 0)], []],
      node "var/Set" 0 (encodeInsets [] ++ Encode.text "v" ++ Encode.text "number")
        [[(1, 0)], [(1, 1)]]]⟩

/-- What the call leaves behind is not what is computed where it has left nothing. -/
theorem twoEndedFile_differs : ∃ loaded, Format.decode .builtin Format.twoEndedFile = .ok loaded ∧
    let graph := loaded.graph
    let machine := graph.machine .builtin 8
    let ctx := Context.ofTrigger { event := "go" }
    graph.IsScript .builtin ∧ (∀ id, ¬graph.HasKind id (.builtin Catalog.random.id)) ∧
      graph.HasKind ⟨1⟩ (.call ⟨0⟩) ∧ (graph.function? ⟨0⟩).bind (·.output) = some ⟨3⟩ ∧
      graph.Frameless ⟨⟨3⟩, 1⟩ ∧
      (graph.outputPort? ⟨⟨1⟩, 1⟩).any (!·.isSignal) ∧ ctx.outermost.call = none ∧
      ∃ after results left computed,
        (machine.execute 8 ⟨⟨1⟩, 0⟩).runAt ctx = (.ok (.next 0), after) ∧
        after.top.callResults.lookup ⟨1⟩ = some results ∧
        results[1]? = some (some left) ∧ left.asNumber? = some 2 ∧
        ComesTo (fun fuel => machine.evaluate fuel ⟨⟨1⟩, 1⟩) (ctx.forgetting ⟨1⟩) (.ok computed) ∧
        computed.asNumber? = some 1 := by
  have facts : ∃ loaded ∈ (Format.decode .builtin Format.twoEndedFile).toOption,
      let graph := loaded.graph
      let machine := graph.machine .builtin 8
      let ctx := Context.ofTrigger { event := "go" }
      graph.nodesOfKind (· == .builtin Catalog.random.id) = [] ∧
        (graph.node? ⟨1⟩).any (·.kind == .call ⟨0⟩) ∧
        (graph.function? ⟨0⟩).bind (·.output) = some ⟨3⟩ ∧ graph.suppliers ⟨3⟩ = [] ∧
        (graph.outputPort? ⟨⟨1⟩, 1⟩).any (!·.isSignal) ∧
        let ran := (machine.execute 8 ⟨⟨1⟩, 0⟩).runAt ctx
        ran.1 = .ok (.next 0) ∧
          ((ran.2.top.callResults.lookup ⟨1⟩).bind (·[1]?.join)).bind Value.asNumber? = some 2 ∧
          ((machine.evaluate 8 ⟨⟨1⟩, 1⟩).runAt (ctx.forgetting ⟨1⟩)).1.toOption.bind
            Value.asNumber? = some 1 := by
    decide +kernel
  obtain ⟨loaded, decoded, nowhere, kind, own, bare, value, went, two, one⟩ := facts
  have decoded := Accepted.toOption_eq_some_iff.1 decoded
  have script : loaded.graph.IsScript .builtin := .first (.inr ⟨_, loaded, decoded, rfl⟩)
  have frameless : loaded.graph.Frameless ⟨⟨3⟩, 1⟩ :=
    Graph.frameless_of_closed (by simp [bare]) (fun id mem => absurd mem List.not_mem_nil) nofun
  rcases ran : ((loaded.graph.machine .builtin 8).execute 8 ⟨⟨1⟩, 0⟩).runAt
    (.ofTrigger { event := "go" }) with ⟨outcome, after⟩
  rw [ran] at went two
  obtain rfl : outcome = .ok (.next 0) := went
  obtain ⟨left?, given, two⟩ := Option.bind_eq_some_iff.1 two
  obtain ⟨results, kept, joined⟩ := Option.bind_eq_some_iff.1 given
  obtain ⟨computed, ended, one⟩ := Option.bind_eq_some_iff.1 one
  refine ⟨loaded, decoded, script, Graph.not_hasKind_of_nodesOfKind nowhere,
    Machine.any_kind_iff.1 kind, own, frameless, value, rfl, after, results, left?, computed, ran,
    kept, Option.join_eq_some_iff.1 joined, two, ?_, one⟩
  exact .of_follows (fun _ enough => (loaded.graph.parts_follow_more enough).evaluate _ trivial)
    (by simp) (Accepted.toOption_eq_some_iff.1 ended)

end NodeScript
