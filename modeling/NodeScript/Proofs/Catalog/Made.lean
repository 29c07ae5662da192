import NodeScript.Catalog.Builtin
import NodeScript.Proofs.Catalog.Config

/-!
What nodes of the catalog are made of. `Scope.Made` lists the parts that a node may put together,
so what holds of the parts and is kept by putting them together holds of every node. Main
statement: `Registry.builtin_made`.
-/

set_option autoImplicit false
set_option relaxedAutoImplicit false

namespace NodeScript

/-- Why a node stops by itself. -/
inductive Refusal where
  | fault (what : String)
  | config (why : GraphError)
  | mismatch (expected found : String)
  | noOutput (slot : Nat)
  | noSignal (slot : Nat)
  | unset (name : String)
  | untold (what : String)

/-- The fault of a node that stops for that reason. -/
def Refusal.error (node : NodeId) : Refusal → RunError
  | fault what => .nodeFault node what
  | config why => .invalidConfig node why
  | mismatch expected found => .typeMismatch node expected found
  | noOutput slot => .notAValueOutput node slot
  | noSignal slot => .notASignalInput node slot
  | unset name => .unsetVariable name
  | untold what => .missingTriggerData what

/-- What a node does is made of parts. Only where it acts it goes on without a value, changes
variables, sends messages and runs chains, and only where it draws it asks for random numbers, below
a bound that is not at or below the first one. -/
inductive Scope.Made (acts draws : Prop) : {α : Type} → (Scope → Run α) → Prop where
  | pure {α : Type} (a : α) : Made acts draws fun _ => Pure.pure a
  | refuse {α : Type} (why : Refusal) :
      Made acts draws fun scope => (.fail (why.error scope.node) : Run α)
  /-- The configuration may decide what is done. -/
  | config {α : Type} (run : Json → Scope → Run α) (each : ∀ config, Made acts draws (run config)) :
      Made acts draws fun scope => run scope.config scope
  | bind {α β : Type} {run : Scope → Run α} {next : Scope → α → Run β}
      (first : Made acts draws run) (rest : ∀ a, Made acts draws fun scope => next scope a) :
      Made acts draws fun scope => run scope >>= next scope
  | input (slot : Nat) : Made acts draws fun scope => scope.input slot
  | slotKey (index : Nat) : Made acts draws fun scope => scope.slotKey index
  | fetch? (key : VarKey) : Made acts draws fun _ => Scope.fetch? key
  | trigger : Made acts draws fun _ => Scope.trigger
  | random (drawing : draws) (low high : Double) (above : high.le low = false) :
      Made acts draws fun scope => scope.random low high
  | orMissing {α : Type} {run : Scope → Run α} (acting : acts) (tried : Made acts draws run) :
      Made acts draws fun scope => (run scope).orMissing
  | store (acting : acts) (key : VarKey) (value : Value) :
      Made acts draws fun _ => Scope.store key value
  | send (acting : acts) (recipient : Option String) (text : String) :
      Made acts draws fun _ => Scope.send recipient text
  | fire (acting : acts) (slot : Nat) : Made acts draws fun scope => scope.fire slot
  | repeatWhile {condition : Scope → Run Bool} {body : Scope → Run Unit} (acting : acts)
      (check : Made acts draws condition) (each : Made acts draws body) :
      Made acts draws fun scope => Run.repeatWhile (condition scope) (body scope) scope.fuel
  | forM {ι : Type} {body : Scope → ι → Run Unit} (acting : acts) (items : List ι)
      (each : ∀ a, Made acts draws fun scope => body scope a) :
      Made acts draws fun scope => items.forM (body scope)

namespace Scope.Made

variable {acts draws : Prop} {α : Type}

theorem ofConfig {run : Scope → Run α}
    (each : ∀ config, Made acts draws fun scope => run { scope with config }) :
    Made acts draws run := by
  exact config (fun config scope => run { scope with config }) each

theorem fault (what : String) : Made acts draws fun scope => (scope.fault what : Run α) :=
  refuse (.fault what)

theorem mismatch (expected : String) (found : Value) :
    Made acts draws fun scope => (scope.mismatch expected found : Run α) :=
  refuse (.mismatch expected found.kindName)

theorem noOutput (slot : Nat) :
    Made acts draws fun scope => (.fail (.notAValueOutput scope.node slot) : Run α) :=
  refuse (.noOutput slot)

theorem noSignal (slot : Nat) :
    Made acts draws fun scope => (.fail (.notASignalInput scope.node slot) : Run α) :=
  refuse (.noSignal slot)

theorem number (slot : Nat) : Made acts draws fun scope => scope.number slot := by
  refine (input slot).bind fun v => ?_
  cases v <;> first | exact pure _ | exact mismatch _ _

theorem boolean (slot : Nat) : Made acts draws fun scope => scope.boolean slot := by
  refine (input slot).bind fun v => ?_
  cases v <;> first | exact pure _ | exact mismatch _ _

theorem text (slot : Nat) : Made acts draws fun scope => scope.text slot := by
  refine (input slot).bind fun v => ?_
  cases v <;> first | exact pure _ | exact mismatch _ _

theorem list (slot : Nat) : Made acts draws fun scope => scope.list slot := by
  refine (input slot).bind fun v => ?_
  cases v <;> first | exact pure _ | exact mismatch _ _

end Scope.Made

/-- What nodes of a type do is made of parts, and what their outputs give is made of parts that do
not act. -/
structure Behavior.Made (behavior : Behavior) (draws : Prop := True) : Prop where
  evaluate : ∀ slot, Scope.Made False draws fun scope => behavior.evaluate scope slot
  execute : ∀ slot, Scope.Made True draws fun scope => behavior.execute scope slot

namespace Catalog

open Scope.Made

variable {draws : Prop}

private theorem made_pure {ports : Ports} {compute : Scope → Run Value}
    (computes : Scope.Made False draws compute) : (Behavior.pure ports compute).Made draws where
  evaluate slot := by
    show Scope.Made False draws fun scope => if slot = 0 then compute scope else _
    split
    · exact computes
    · exact noOutput slot
  execute := noSignal

private theorem made_arithmetic (name description : String) (a b : Double)
    {compute : Scope → Double → Double → Run Double}
    (computes : ∀ a b, Scope.Made False draws fun scope => compute scope a b) :
    (arithmetic name description a b compute).behavior.Made draws := by
  refine made_pure ?_
  refine (number 0).bind fun a => ?_
  refine (number 1).bind fun b => ?_
  exact (computes a b).bind fun _ => pure _

private theorem made_list (name description : String) (ports : DataType → Ports)
    {compute : Scope → List Value → Run Value}
    (computes : ∀ items, Scope.Made False draws fun scope => compute scope items) :
    (listType name description ports compute).behavior.Made draws where
  evaluate _ := (list 0).bind computes
  execute := noSignal

private theorem made_carried {β : Type} (carried : Option β) (make : β → Value) (what : String) :
    Scope.Made False draws fun _ => (match carried with
      | some value => return make value
      | none => .fail (.missingTriggerData what) : Run Value) := by
  cases carried with
  | none => exact refuse (.untold what)
  | some value => exact pure _

private theorem made_onEvent : onEvent.behavior.Made draws where
  evaluate slot := trigger.bind fun given => by
    match slot with
    | 1 => exact made_carried given.player .player "player"
    | 2 => exact made_carried given.text .text "text"
    | 3 => exact made_carried given.number .number "number"
    | 0 | n + 4 => exact noOutput _
  execute := noSignal

private theorem made_branch : branch.behavior.Made draws where
  evaluate := noOutput
  execute _ := (boolean 1).bind fun holds => by cases holds <;> exact pure _

private theorem made_repeatWhile : repeatWhile.behavior.Made draws where
  evaluate := noOutput
  execute _ := ((boolean 1).repeatWhile trivial (fire trivial 0)).bind fun _ => pure _

private theorem made_loopValue (key : VarKey) : Scope.Made False draws fun scope => (do
    match ← Scope.fetch? key with
    | some value => return value
    | none => scope.fault "loop value read outside of the loop body" : Run Value) := by
  refine (fetch? key).bind fun value? => ?_
  cases value? <;> first | exact pure _ | exact fault _

private theorem made_forEach : forEach.behavior.Made draws where
  evaluate slot := by
    match slot with
    | 1 => exact (slotKey 0).bind made_loopValue
    | 2 => exact (slotKey 1).bind made_loopValue
    | 0 | n + 3 => exact (noOutput _).bind made_loopValue
  execute _ := (list 1).bind fun items => (slotKey 0).bind fun element =>
    (slotKey 1).bind fun index =>
      (forM trivial items.zipIdx fun _ => (store trivial element _).bind fun _ =>
        (store trivial index _).bind fun _ => fire trivial 0).bind fun _ => pure _

private theorem made_sequence : sequence.behavior.Made draws where
  evaluate := noOutput
  execute _ := (config (fun config scope =>
    (List.range (sequenceLength config)).forM scope.fire) fun _ =>
      forM trivial _ fun slot => fire trivial slot).bind fun _ => pure _

private theorem made_log : log.behavior.Made draws where
  evaluate := noOutput
  execute _ := (text 1).bind fun _ => pure _

private theorem made_message : message.behavior.Made draws where
  evaluate := noOutput
  execute _ := (text 1).bind fun _ => ((input 2).orMissing trivial).bind fun value? => by
    rcases value? with _ | _ | _ | _ | player | _ | _
    · exact trigger.bind fun _ => (send trivial _ _).bind fun _ => pure _
    all_goals
      first
      | exact (send trivial (some player) _).bind fun _ => pure _
      | exact (mismatch _ _).bind fun _ => pure _

private theorem made_constant : constant.behavior.Made draws where
  evaluate _ := ofConfig fun config => by
    dsimp only [constant]
    cases literal config with
    | ok value => exact pure _
    | error why => exact refuse (.config why)
  execute := noSignal

private theorem made_readVariable : Scope.Made False draws readVariable := by
  refine ofConfig fun config => ?_
  refine (fetch? (.named (variableName.value config))).bind fun value? => ?_
  cases value?
  · exact refuse (.unset (variableName.value config))
  · exact pure _

private theorem made_getVariable : getVariable.behavior.Made draws where
  evaluate _ := made_readVariable
  execute := noSignal

private theorem made_setVariable : setVariable.behavior.Made draws where
  evaluate _ := made_readVariable
  execute _ := (input 1).bind fun value =>
    (config (fun config _ => Scope.store (.named (variableName.value config)) value)
      fun _ => store trivial _ _).bind fun _ => pure _

private theorem made_divide : divide.behavior.Made draws := by
  refine made_arithmetic _ _ _ _ fun a b => ?_
  split
  · exact fault _
  · exact pure _

private theorem made_random (drawing : draws) : random.behavior.Made draws := by
  refine made_pure ?_
  refine (number 0).bind fun low => ?_
  refine (number 1).bind fun high => ?_
  split
  · exact pure _
  · rename_i above
    exact (Scope.Made.random drawing low high (Bool.eq_false_iff.2 above)).bind fun _ => pure _

private theorem made_compare : compare.behavior.Made draws where
  evaluate _ := ofConfig fun config => (number 0).bind fun a => (number 1).bind fun b => by
    dsimp only
    cases comparison? (operator.value config) <;> first | exact pure _ | exact fault _
  execute := noSignal

private theorem made_toText : toText.behavior.Made draws where
  evaluate _ := (input 0).bind fun _ => pure _
  execute := noSignal

private theorem made_getField : getField.behavior.Made draws where
  evaluate _ := ofConfig fun config => (input 0).bind fun value => by
    dsimp only
    cases value.field? (fieldName.value config) <;> first | exact pure _ | exact fault _
  execute := noSignal

/-- Only nodes of one type ask for random numbers. -/
theorem all_made {type : NodeType} (h : type ∈ all) (drawing : type.id = random.id → draws) :
    type.behavior.Made draws := by
  simp only [all, List.mem_cons, List.not_mem_nil, or_false] at h
  rcases h with rfl | rfl | rfl | rfl | rfl | rfl | rfl | rfl | rfl | rfl | rfl | rfl | rfl | rfl |
    rfl | rfl | rfl | rfl | rfl | rfl | rfl | rfl | rfl | rfl | rfl
  · exact made_onEvent
  · exact made_branch
  · exact made_repeatWhile
  · exact made_forEach
  · exact made_sequence
  · exact made_log
  · exact made_message
  · exact made_constant
  · exact made_getVariable
  · exact made_setVariable
  · exact made_arithmetic _ _ _ _ fun _ _ => pure _
  · exact made_arithmetic _ _ _ _ fun _ _ => pure _
  · exact made_arithmetic _ _ _ _ fun _ _ => pure _
  · exact made_divide
  · exact made_random (drawing rfl)
  · exact made_compare
  · exact made_pure <| (boolean 0).bind fun a => by
      cases a
      · exact pure _
      · exact (boolean 1).bind fun _ => pure _
  · exact made_pure <| (boolean 0).bind fun a => by
      cases a
      · exact (boolean 1).bind fun _ => pure _
      · exact pure _
  · exact made_pure <| (boolean 0).bind fun _ => pure _
  · exact made_pure <| (text 0).bind fun _ => (text 1).bind fun _ => pure _
  · exact made_toText
  · exact made_list _ _ _ fun _ => pure _
  · exact made_list _ _ _ fun items => (number 1).bind fun index => by
      split
      · exact pure _
      · exact fault _
  · exact made_list _ _ _ fun items => (input 1).bind fun _ => pure _
  · exact made_getField

end Catalog

/-- What nodes of the types of a registry do is made of parts. -/
def Registry.Made (registry : Registry) : Prop :=
  ∀ id behavior, registry.behavior? id = some behavior → behavior.Made

theorem Registry.builtin_made_drawing {id : String} {behavior : Behavior}
    (found : builtin.behavior? id = some behavior) {draws : Prop}
    (drawing : id = Catalog.random.id → draws) : behavior.Made draws := by
  obtain ⟨type, registered, rfl⟩ := Option.map_eq_some_iff.1 found
  obtain ⟨mem, rfl⟩ := mem_of_find? registered
  exact Catalog.all_made mem drawing

theorem Registry.builtin_made : builtin.Made := by
  intro id behavior found
  exact builtin_made_drawing found fun _ => trivial

theorem Registry.builtin_made_of_ne {id : String} {behavior : Behavior}
    (found : builtin.behavior? id = some behavior) (other : id ≠ Catalog.random.id) :
    behavior.Made False :=
  builtin_made_drawing found other

end NodeScript
