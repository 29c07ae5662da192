import NodeScript.Proofs.Format.Loaded
import NodeScript.Proofs.Run.Repeated

/-!
Whom messages go to. A node that sends messages has an input for a player, which is to count as
absent only where it has neither a wire nor a literal; it then goes by the player of the trigger. It
takes a value that is missing further up the wire for the same. Main statements:
`Graph.IsScript.addresses_iff`, by which nothing else differs, and `stranding_misaddressed`, where a
message goes to a player that no wire leads to.
-/

set_option autoImplicit false
set_option relaxedAutoImplicit false

namespace NodeScript

open Run Context

def Graph.isOpen (graph : Graph) (target : InputRef) : Bool :=
  (graph.input? target).all fun input => input.wires.isEmpty && input.inset.isNone

namespace Machine

/-- Reads an input as it is documented: nothing where it has neither a wire nor a literal, and else
what it gives. -/
def readUnlessOpen (machine : Machine) (fuel : Nat) (target : InputRef) : Run (Option Value) :=
  if machine.graph.isOpen target then pure none else some <$> machine.pull fuel target

def sender (machine : Machine) (fuel : Nat) (id : NodeId) : Scope :=
  machine.scope fuel (machine.parts fuel) id .null

def readText (machine : Machine) (fuel : Nat) (id : NodeId) : Run String := do
  step
  (machine.sender fuel id).text 1

def deliver (sender : Scope) (text : String) : Option Value → Run Flow
  | some (.player player) => do
    Scope.send (some player) text
    return .next 0
  | some other => sender.mismatch "player" other
  | none => do
    Scope.send (← Scope.trigger).player text
    return .next 0

/-- Sends a message to the player that is read in some way once the text is there. -/
def sendTo (machine : Machine) (fuel : Nat) (id : NodeId) (player : Run (Option Value)) :
    Run Flow := do
  let text ← machine.readText fuel id
  deliver (machine.sender fuel id) text (← player)

def Misses (machine : Machine) (fuel : Nat) (target : InputRef) (ctx : Context) : Prop :=
  ∃ source node input after, (machine.graph.input? target).bind Input.source? = some source ∧
    (machine.evaluate fuel source).runAt ctx = (.error (.fault (.missingValue node input)), after)

/-- The text is there, and a value is missing where the wire for the player leads to. -/
def Overlooks (machine : Machine) (fuel : Nat) (id : NodeId) (ctx : Context) : Prop :=
  ∃ text read, (machine.readText (fuel + 1) id).runAt ctx = (.ok text, read) ∧
    machine.Misses fuel ⟨id, 2⟩ read

end Machine

namespace Graph

variable {graph : Graph} {id : NodeId} {limit fuel : Nat} {ctx : Context}

theorem WellFormed.player_input (formed : graph.WellFormed Registry.builtin.Declares)
    (sends : graph.HasKind id (.builtin Catalog.message.id)) :
    ∃ input, graph.input? ⟨id, 2⟩ = some input ∧ input.port.default = none := by
  obtain ⟨form, here, kind⟩ := sends
  obtain ⟨behavior, known, registered, declared⟩ := formed.admitted here kind
  obtain rfl : Catalog.message.behavior = behavior := Option.some.inj registered
  have ports := Except.ok.inj declared
  have port : graph.inputPort? ⟨id, 2⟩ = some (Catalog.valuePort "player" .player) := by
    rw [inputPort?, here, Option.bind_some, ← ports]
    rfl
  rw [inputPort?_eq, Option.map_eq_some_iff] at port
  obtain ⟨input, found, same⟩ := port
  exact ⟨input, found, by rw [same]; rfl⟩

theorem execute_message (sends : graph.HasKind id (.builtin Catalog.message.id)) (slot : Nat) :
    let machine := graph.machine .builtin limit
    machine.execute (fuel + 1) ⟨id, slot⟩ =
      machine.sendTo fuel id (machine.pull fuel ⟨id, 2⟩).orMissing := by
  intro machine
  obtain ⟨node, here, kind⟩ := hasKind_iff.1 sends
  have builtin : graph.builtin? id = some (Catalog.message.id, node.config) :=
    builtin?_eq_some (form?_eq_of_node? here) kind
  show machine.executeWith fuel _ ⟨id, slot⟩ = _
  unfold Machine.executeWith
  rw [show machine.graph.node? id = some node from here]
  dsimp only
  rw [kind]
  dsimp only
  rw [behavior_machine builtin rfl, pure_bind, Machine.sendTo, Machine.readText, bind_assoc]
  refine bind_congr fun _ => bind_congr fun text => bind_congr fun player => ?_
  rcases player with _ | _ | _ | _ | _ | _ | _ <;> rfl

theorem pull_open {input : Input} {target : InputRef} (found : graph.input? target = some input)
    (bare : input.port.default = none) (opened : graph.isOpen target = true) (ctx : Context) :
    ((graph.machine .builtin limit).pull (fuel + 1) target).runAt ctx =
      (.error (.fault (.missingValue target.node input.port.name)), ctx) := by
  show ((graph.machine .builtin limit).pullWith _ target).runAt ctx = _
  simp only [isOpen, found, Option.all_some, Bool.and_eq_true, List.isEmpty_iff,
    Option.isNone_iff_eq_none] at opened
  rw [Machine.pullWith_eq, show (graph.machine .builtin limit).graph.input? target = some input from
    found]
  simp [Input.source?, Input.literal?, opened, bare]

theorem pull_eq_missing_iff {input : Input} {target : InputRef}
    (found : graph.input? target = some input) (closed : graph.isOpen target = false)
    {after : Context} {node : NodeId} {name : String} :
    ((graph.machine .builtin limit).pull (fuel + 1) target).runAt ctx =
        (.error (.fault (.missingValue node name)), after) ↔
      ∃ source, input.source? = some source ∧
        ((graph.machine .builtin limit).evaluate fuel source).runAt ctx =
          (.error (.fault (.missingValue node name)), after) := by
  show ((graph.machine .builtin limit).pullWith _ target).runAt ctx = _ ↔ _
  rw [Machine.pullWith_eq, show (graph.machine .builtin limit).graph.input? target = some input from
    found]
  dsimp only
  cases source : input.source? with
  | some source => simp
  | none =>
    simp only [isOpen, found, Option.all_some, Input.source?, Option.map_eq_none_iff,
      List.head?_eq_none_iff] at closed source
    simp only [source, List.isEmpty_nil, Bool.true_and] at closed
    obtain ⟨value, inset⟩ := Option.isSome_iff_exists.1 (by simpa using closed)
    have literal : input.literal? = some value := by rw [Input.literal?, inset]; rfl
    simp [literal]

/-- To go on where a value is missing is to read the input as it is documented, unless the value is
missing behind a wire. -/
theorem orMissing_cases {input : Input} {target : InputRef}
    (found : graph.input? target = some input) (bare : input.port.default = none) (ctx : Context) :
    let machine := graph.machine .builtin limit
    let tried := (machine.pull (fuel + 1) target).orMissing.runAt ctx
    let documented := (machine.readUnlessOpen (fuel + 1) target).runAt ctx
    tried = documented ∧ ¬machine.Misses fuel target ctx ∨
      ∃ after stop, tried = (.ok none, after) ∧ documented = (.error stop, after) ∧
        machine.Misses fuel target ctx := by
  intro machine tried documented
  have tried_eq : tried = _ := runAt_orMissing _ ctx
  have closed_iff : machine.graph.isOpen target = graph.isOpen target := rfl
  cases opened : graph.isOpen target with
  | true =>
    rw [pull_open found bare opened] at tried_eq
    refine .inl ⟨?_, ?_⟩
    · simp only [tried_eq, caught, documented, Machine.readUnlessOpen, closed_iff, opened, if_true,
        runAt_pure]
    · rintro ⟨source, -, -, -, wired, -⟩
      rw [show machine.graph.input? target = some input from found, Option.bind_some] at wired
      simp only [isOpen, found, Option.all_some, Bool.and_eq_true, List.isEmpty_iff] at opened
      simp [Input.source?, opened.1] at wired
  | false =>
    have documented_eq : documented = (some <$> machine.pull (fuel + 1) target).runAt ctx := by
      simp only [documented, Machine.readUnlessOpen, closed_iff, opened, Bool.false_eq_true,
        if_false]
    have missing (node : NodeId) (name : String) (after : Context) :
        (machine.pull (fuel + 1) target).runAt ctx =
            (.error (.fault (.missingValue node name)), after) ↔
          ∃ source, input.source? = some source ∧ (machine.evaluate fuel source).runAt ctx =
            (.error (.fault (.missingValue node name)), after) :=
      pull_eq_missing_iff found opened
    have misses_iff : machine.Misses fuel target ctx ↔ ∃ node name after,
        (machine.pull (fuel + 1) target).runAt ctx =
          (.error (.fault (.missingValue node name)), after) := by
      simp only [Machine.Misses, missing, machine,
        show (graph.machine .builtin limit).graph.input? target = some input from found,
        Option.bind_some]
      grind
    rw [map_eq_pure_bind, runAt_bind] at documented_eq
    rw [misses_iff, tried_eq, documented_eq]
    generalize (machine.pull (fuel + 1) target).runAt ctx = outcome
    obtain ⟨result, after⟩ := outcome
    rcases caught_cases result with
      ⟨value, rfl, given⟩ | ⟨node, name, rfl, given⟩ | ⟨stop, rfl, other, given⟩
    · exact .inl ⟨rfl, by simp⟩
    · exact .inr ⟨after, _, rfl, rfl, node, name, after, rfl⟩
    · refine .inl ⟨congrArg (·, after) given, ?_⟩
      rintro ⟨node, name, _, same⟩
      exact other node name (Except.error.inj (congrArg Prod.fst same))

theorem readText_kept (bottom : ctx.outermost.call = none) (fuel : Nat) (id : NodeId) :
    Kept False ctx (((graph.machine .builtin limit).readText fuel id).runAt ctx).2 := by
  obtain ⟨room, deep, within⟩ := exists_within bottom limit
  have redraws (_ : True) : Delay.none.redraw = fun draws => draws := rfl
  have made : Scope.Made False True fun scope => scope.text 1 := .text 1
  have agree : Machine.Parts.Agree .none room ((graph.machine .builtin limit).parts fuel)
      ((graph.machine .builtin limit).parts fuel) :=
    Machine.parts_agree deep redraws (fun _ _ => made_machine) fuel
  have reads : Run.Agrees .none room False ((graph.machine .builtin limit).readText fuel id)
      ((graph.machine .builtin limit).readText fuel id) :=
    Machine.agrees_step.bind fun _ => made.agrees redraws (Machine.agrees_scope agree id .null)
  exact (reads ctx within).2

theorem orMissing_kept (bottom : ctx.outermost.call = none) (fuel : Nat) (target : InputRef) :
    Kept False ctx (((graph.machine .builtin limit).pull fuel target).orMissing.runAt ctx).2 := by
  have kept : Kept False ctx (((graph.machine .builtin limit).pull fuel target).runAt ctx).2 :=
    pull_kept bottom fuel target
  rw [runAt_orMissing]
  exact kept

end Graph

section

variable {machine : Machine} {fuel : Nat} {id : NodeId} {ctx read : Context} {text : String}

theorem Machine.sendTo_of_text (reads : (machine.readText fuel id).runAt ctx = (.ok text, read))
    (player : Run (Option Value)) : (machine.sendTo fuel id player).runAt ctx =
      (player >>= Machine.deliver (machine.sender fuel id) text).runAt read := by
  rw [sendTo, runAt_bind, reads]

theorem Machine.sendTo_of_stop {stop : Stop}
    (stops : (machine.readText fuel id).runAt ctx = (.error stop, read))
    (player : Run (Option Value)) :
    (machine.sendTo fuel id player).runAt ctx = (.error stop, read) := by
  rw [sendTo, runAt_bind, stops]

theorem Machine.deliver_none (sender : Scope) (text : String) (ctx : Context) :
    (deliver sender text none).runAt ctx = (.ok (.next 0),
      { ctx with messages := ctx.messages ++ [⟨ctx.trigger.player, text⟩] }) := rfl

theorem Machine.deliver_messages {sender : Scope} {player : Option Value} {stop : Stop}
    (stopped : ((deliver sender text player).runAt ctx).1 = .error stop) :
    ((deliver sender text player).runAt ctx).2.messages = ctx.messages := by
  rcases player with _ | _ | _ | _ | _ | _ | _
  all_goals first | rfl | cases stopped

end

/-- A node that sends messages does as it is documented unless a value is missing where the wire for
the player leads to. It then sends the message to the player of the trigger. Where it fails nothing
is sent. -/
theorem Graph.IsScript.addresses_iff {graph : Graph} (script : graph.IsScript .builtin)
    {id : NodeId}
    (sends : graph.HasKind id (.builtin Catalog.message.id)) (maxCallDepth fuel slot : Nat)
    {ctx : Context} (bottom : ctx.outermost.call = none) :
    let machine := graph.machine .builtin maxCallDepth
    let executed := (machine.execute (fuel + 2) ⟨id, slot⟩).runAt ctx
    (executed = (machine.sendTo (fuel + 1) id
        (machine.readUnlessOpen (fuel + 1) ⟨id, 2⟩)).runAt ctx ↔
      ¬machine.Overlooks fuel id ctx) ∧
    (machine.Overlooks fuel id ctx → executed.1 = .ok (.next 0) ∧
      ∃ text, executed.2.messages = ctx.messages ++ [⟨ctx.trigger.player, text⟩]) ∧
    ∀ stop, executed.1 = .error stop → executed.2.messages = ctx.messages := by
  intro machine executed
  obtain ⟨input, found, bare⟩ := script.wellFormed.player_input sends
  have executed_eq : executed = (machine.sendTo (fuel + 1) id
      (machine.pull (fuel + 1) ⟨id, 2⟩).orMissing).runAt ctx := by
    have same : machine.execute (fuel + 2) ⟨id, slot⟩ =
        machine.sendTo (fuel + 1) id (machine.pull (fuel + 1) ⟨id, 2⟩).orMissing :=
      execute_message sends slot
    exact congrArg (Run.runAt · ctx) same
  rw [executed_eq]
  have textKept : Kept False ctx ((machine.readText (fuel + 1) id).runAt ctx).2 :=
    readText_kept bottom (fuel + 1) id
  rcases reads : (machine.readText (fuel + 1) id).runAt ctx with ⟨stop | text, read⟩
  · rw [reads] at textKept
    have attentive : ¬machine.Overlooks fuel id ctx := by
      rintro ⟨text, read, given, -⟩
      simp [reads] at given
    rw [Machine.sendTo_of_stop reads, Machine.sendTo_of_stop reads]
    exact ⟨iff_of_true rfl attentive, fun overlooks => absurd overlooks attentive,
      fun _ _ => (textKept.quiet not_false).2⟩
  · rw [reads] at textKept
    have overlooks_iff : machine.Overlooks fuel id ctx ↔ machine.Misses fuel ⟨id, 2⟩ read := by
      simp [Machine.Overlooks, reads]
    rw [Machine.sendTo_of_text reads, Machine.sendTo_of_text reads, overlooks_iff, runAt_bind,
      runAt_bind]
    -- Up to here nothing has changed that a message could show.
    have below : read.outermost.call = none := by
      obtain ⟨room, -, within⟩ := exists_within bottom 0
      exact (textKept.within within).outermost
    have playerKept : Kept False read ((machine.pull (fuel + 1) ⟨id, 2⟩).orMissing.runAt read).2 :=
      orMissing_kept below (fuel + 1) ⟨id, 2⟩
    have kept := textKept.trans playerKept
    have cases : _ ∨ ∃ after stop, _ ∧ _ ∧ machine.Misses fuel ⟨id, 2⟩ read :=
      orMissing_cases found bare read
    rcases cases with ⟨same, hits⟩ | ⟨after, stop, tried, documented, misses⟩
    · refine ⟨iff_of_true (by rw [same]) hits, fun misses => absurd misses hits, fun stop => ?_⟩
      generalize (machine.pull (fuel + 1) ⟨id, 2⟩).orMissing.runAt read = outcome at kept
      obtain ⟨failure | player, after⟩ := outcome
      · intro _
        exact (kept.quiet not_false).2
      · intro stopped
        exact (Machine.deliver_messages stopped).trans (kept.quiet not_false).2
    · rw [tried] at kept
      have sent := Machine.deliver_none (machine.sender (fuel + 1) id) text after
      have messages : after.messages = ctx.messages := (kept.quiet not_false).2
      have trigger : after.trigger = ctx.trigger := kept.trigger
      rw [tried, documented]
      dsimp only
      rw [sent, messages, trigger]
      exact ⟨iff_of_false nofun (not_not_intro misses), fun _ => ⟨rfl, text, rfl⟩, nofun⟩

/-- A message to an element of a list that is not there. -/
def Edit.stranding : List Edit := [
  .addBuiltin "event/On" (.obj [("event", .str "go")]) .zero,
  .addBuiltin "list/Get" (.obj [("element", .str "player")]) .zero,
  .addBuiltin "util/Message" .null .zero,
  .setInset ⟨⟨2⟩, 1⟩ (some (.text "hi")),
  .connect ⟨⟨1⟩, 0⟩ ⟨⟨2⟩, 2⟩ [],
  .connect ⟨⟨0⟩, 0⟩ ⟨⟨2⟩, 0⟩ []]

theorem stranding_addresses : ∃ graph,
    Edit.stranding.foldlM (Edit.apply Registry.builtin) .empty = .ok graph ∧
      graph.HasKind ⟨2⟩ (.builtin Catalog.message.id) ∧
      let machine := graph.machine .builtin 8
      let ctx := Context.ofTrigger { event := "go", player := some "ann" }
      ctx.outermost.call = none ∧ machine.Overlooks 2 ⟨2⟩ ctx ∧
        ((machine.execute 4 ⟨⟨2⟩, 0⟩).runAt ctx).1 = .ok (.next 0) := by
  have facts : ∃ graph ∈ (Edit.stranding.foldlM (Edit.apply Registry.builtin) .empty).toOption,
      (graph.node? ⟨2⟩).any (·.kind == .builtin Catalog.message.id) ∧
        let machine := graph.machine .builtin 8
        let ctx := Context.ofTrigger { event := "go", player := some "ann" }
        ((machine.execute 4 ⟨⟨2⟩, 0⟩).runAt ctx).1 ≠
          ((machine.sendTo 3 ⟨2⟩ (machine.readUnlessOpen 3 ⟨⟨2⟩, 2⟩)).runAt ctx).1 := by
    decide +kernel
  obtain ⟨graph, built, kind, differs⟩ := facts
  have built := Accepted.toOption_eq_some_iff.1 built
  have script : graph.IsScript .builtin :=
    Reached.foldlM rfl (.first (.inl rfl)) (fun _ _ _ => trivial) built
  have sends := Machine.any_kind_iff.1 kind
  have bottom : (Context.ofTrigger { event := "go", player := some "ann" }).outermost.call =
    none := rfl
  obtain ⟨same_iff, addressed, -⟩ := script.addresses_iff sends 8 2 0 bottom
  have overlooks := not_not.1 fun attentive =>
    differs (congrArg Prod.fst (same_iff.2 attentive))
  exact ⟨graph, built, sends, bottom, overlooks, (addressed overlooks).1⟩

/-- What the wire for the player leads to fails, and a message goes to the player of the trigger. -/
theorem stranding_misaddressed : ∃ graph,
    Edit.stranding.foldlM (Edit.apply Registry.builtin) .empty = .ok graph ∧
      let machine := graph.machine .builtin 8
      let ctx := Context.ofTrigger { event := "go", player := some "ann" }
      (graph.input? ⟨⟨2⟩, 2⟩).bind Input.source? = some ⟨⟨1⟩, 0⟩ ∧
        ((machine.evaluate 3 ⟨⟨1⟩, 0⟩).runAt ctx).1.map Value.kindName =
          .error (.fault (.missingValue ⟨1⟩ "list")) ∧
        ((machine.emit 5 ⟨0⟩).runAt ctx).1 = .ok () ∧
        ((machine.emit 5 ⟨0⟩).runAt ctx).2.messages = [⟨some "ann", "hi"⟩] := by
  have facts : ∃ graph ∈ (Edit.stranding.foldlM (Edit.apply Registry.builtin) .empty).toOption,
      let machine := graph.machine .builtin 8
      let ctx := Context.ofTrigger { event := "go", player := some "ann" }
      (graph.input? ⟨⟨2⟩, 2⟩).bind Input.source? = some ⟨⟨1⟩, 0⟩ ∧
        ((machine.evaluate 3 ⟨⟨1⟩, 0⟩).runAt ctx).1.map Value.kindName =
          .error (.fault (.missingValue ⟨1⟩ "list")) ∧
        ((machine.emit 5 ⟨0⟩).runAt ctx).1 = .ok () ∧
        ((machine.emit 5 ⟨0⟩).runAt ctx).2.messages = [⟨some "ann", "hi"⟩] := by
    decide +kernel
  obtain ⟨graph, built, misaddressed⟩ := facts
  exact ⟨graph, Accepted.toOption_eq_some_iff.1 built, misaddressed⟩

end NodeScript
