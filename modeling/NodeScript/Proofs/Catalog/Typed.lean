import NodeScript.Proofs.Catalog.Ports
import NodeScript.Proofs.Graph.Form
import NodeScript.Proofs.Run.Kept
import NodeScript.Proofs.Run.Typed

/-!
Nodes of the catalog keep to their ports. Where the inputs of a node give values of the types of
its ports, so do its outputs, control leaves it through signal outputs, and it stops only at the
faults that nodes of its type may stop at. Main statement: `Registry.builtin_typed`.
-/

set_option autoImplicit false
set_option relaxedAutoImplicit false

namespace NodeScript

open Run

/-- The variables that a node uses, with the types of the ports that it uses them for. -/
inductive Form.Uses (slots : List Slot) (form : Form) : VarKey → DataType → Prop where
  | get {port : Port} (kind : form.kind = .builtin Catalog.getVariable.id)
      (output : form.ports.outputs[0]? = some port) :
      Uses slots form (.named (Catalog.variableName.value form.config)) port.type
  | set {port : Port} (kind : form.kind = .builtin Catalog.setVariable.id)
      (output : form.ports.outputs[1]? = some port) :
      Uses slots form (.named (Catalog.variableName.value form.config)) port.type
  | element {port : Port} {slot : Slot} (kind : form.kind = .builtin Catalog.forEach.id)
      (output : form.ports.outputs[1]? = some port) (given : slots[0]? = some slot) :
      Uses slots form (.slot slot) port.type
  | index {port : Port} {slot : Slot} (kind : form.kind = .builtin Catalog.forEach.id)
      (output : form.ports.outputs[2]? = some port) (given : slots[1]? = some slot) :
      Uses slots form (.slot slot) port.type

/-- The faults that a node stops at by itself: variables that are not set, triggers that do not
carry what is asked for, divisions by zero, indices out of range, and values of loops that do not
run. -/
inductive Form.MayFail (id : NodeId) (form : Form) : RunError → Prop where
  | get (kind : form.kind = .builtin Catalog.getVariable.id) :
      MayFail id form (.unsetVariable (Catalog.variableName.value form.config))
  | set (kind : form.kind = .builtin Catalog.setVariable.id) :
      MayFail id form (.unsetVariable (Catalog.variableName.value form.config))
  | trigger (kind : form.kind = .builtin Catalog.onEvent.id) (what : String) :
      MayFail id form (.missingTriggerData what)
  | division (kind : form.kind = .builtin Catalog.divide.id) :
      MayFail id form (.nodeFault id "division by zero")
  | range (kind : form.kind = .builtin Catalog.listGet.id) (index : String) (length : Nat) :
      MayFail id form (.nodeFault id s!"index {index} out of range for list of {length}")
  | loop (kind : form.kind = .builtin Catalog.forEach.id) :
      MayFail id form (.nodeFault id "loop value read outside of the loop body")

/-- What a node of a form sees, where its inputs and its chains keep to its ports. -/
structure Scope.Typed (typing : Typing) (stack : List (Option NodeId)) (form : Form)
    (scope : Scope) : Prop where
  config : scope.config = form.config
  input : ∀ slot port, form.ports.inputs[slot]? = some port → port.isSignal = false →
    Sound typing stack (fun v => port.type.accepts v = true) (scope.input slot)
  fire : ∀ slot port, form.ports.outputs[slot]? = some port → port.isSignal = true →
    Sound typing stack (fun _ => True) (scope.fire slot)
  slots : form.kind = .builtin Catalog.forEach.id → ∃ element index, scope.slots = [element, index]
  uses : ∀ {key type}, form.Uses scope.slots key type → typing.var key type
  fails : ∀ {error}, form.MayFail scope.node error → typing.fault error

/-- Control leaves through a signal output, if it goes on. -/
def Ports.Leads (ports : Ports) (flow : Flow) : Prop :=
  ∀ slot, flow = .next slot → ∃ port, ports.outputs[slot]? = some port ∧ port.isSignal = true

def Ports.DefaultsFit (ports : Ports) : Prop :=
  ∀ port ∈ ports.inputs, ∀ v, port.default = some v → port.type.accepts v = true

instance (ports : Ports) : Decidable ports.DefaultsFit :=
  decidable_of_iff (ports.inputs.all fun port => port.default.all port.type.accepts) <| by
    simp only [Ports.DefaultsFit, List.all_eq_true, Option.all_eq_true]

/-- Nodes of a type keep to their ports. -/
structure Behavior.Typed (type : String) (behavior : Behavior) : Prop where
  defaults : ∀ {config known ports}, behavior.ports config known = .ok ports → ports.DefaultsFit
  evaluate : ∀ {config known ports}, behavior.ports config known = .ok ports →
    ∀ {typing stack scope}, scope.Typed typing stack ⟨.builtin type, config, ports⟩ →
    ∀ slot port, ports.outputs[slot]? = some port → port.isSignal = false →
      Sound typing stack (fun v => port.type.accepts v = true) (behavior.evaluate scope slot)
  execute : ∀ {config known ports}, behavior.ports config known = .ok ports →
    ∀ {typing stack scope}, scope.Typed typing stack ⟨.builtin type, config, ports⟩ →
    ∀ slot port, ports.inputs[slot]? = some port → port.isSignal = true →
      Sound typing stack ports.Leads (behavior.execute scope slot)

variable {typing : Typing} {stack : List (Option NodeId)} {form : Form} {scope : Scope}

theorem Sound.fetch? (typing : Typing) (stack : List (Option NodeId)) (key : VarKey) :
    Sound typing stack (fun v? => ∀ v type, v? = some v → typing.var key type →
      type.accepts v = true) (Scope.fetch? key) := by
  intro ctx typed
  refine ⟨typed, fun v type found used => ?_⟩
  have top := typed.frames ctx.top List.mem_cons_self
  exact top.vars found used

theorem Sound.store {key : VarKey} {value : Value}
    (fits : ∀ type, typing.var key type → type.accepts value = true) :
    Sound typing stack (fun _ => True) (Scope.store key value) := by
  refine Sound.changing fun ctx typed => ?_
  have top := typed.frames ctx.top List.mem_cons_self
  refine typed.change rfl rfl { top with vars := fun {other v type} found used => ?_ }
  by_cases same : other = key
  · subst same
    rw [Assoc.lookup_put_self] at found
    obtain rfl := Option.some.inj found
    exact fits type used
  · rw [Assoc.lookup_put_of_ne same] at found
    exact top.vars found used

theorem Sound.trigger (typing : Typing) (stack : List (Option NodeId)) :
    Sound typing stack (fun _ => True) Scope.trigger := by
  intro _ typed
  exact ⟨typed, trivial⟩

theorem Sound.random (typing : Typing) (stack : List (Option NodeId)) (scope : Scope)
    (low high : Double) : Sound typing stack (fun _ => True) (scope.random low high) := by
  intro ctx typed
  rw [runAt_random]
  refine ⟨typed.change rfl rfl (typed.frames ctx.top List.mem_cons_self), ?_⟩
  cases (ctx.draws.next low high).1 with
  | none =>
    intro error stopped
    simp at stopped
  | some n => trivial

theorem Sound.aside {change : Context → Context}
    (top : ∀ ctx, (change ctx).top = ctx.top)
    (callers : ∀ ctx, (change ctx).callers = ctx.callers) :
    Sound typing stack (fun _ => True) (modify change) := by
  refine Sound.changing fun ctx typed => ?_
  refine typed.change (callers ctx) (congrArg (·.call) (top ctx)) ?_
  rw [top ctx]
  exact typed.frames ctx.top List.mem_cons_self

namespace Scope.Typed

variable (typed : scope.Typed typing stack form) {slot : Nat} {port : Port}
  (found : form.ports.inputs[slot]? = some port)
include typed found

/-- What is done with the value of an input. -/
theorem read {α : Type} {post : α → Prop} {next : Value → Run α} {type : DataType}
    (same : port.type = type) (value : type.isSignal = false)
    (rest : ∀ v, type.accepts v = true → Sound typing stack post (next v)) :
    Sound typing stack post (scope.input slot >>= next) := by
  have bare : port.isSignal = false := by rw [Port.isSignal, same, value]
  refine (typed.input slot port found bare).bind fun v accepted => ?_
  rw [same] at accepted
  exact rest v accepted

theorem number (type : port.type = .number) :
    Sound typing stack (fun _ => True) (scope.number slot) := by
  refine typed.read found type rfl fun v accepted => ?_
  cases v with
  | number n => exact .pure trivial
  | _ => simp [DataType.accepts] at accepted

theorem boolean (type : port.type = .boolean) :
    Sound typing stack (fun _ => True) (scope.boolean slot) := by
  refine typed.read found type rfl fun v accepted => ?_
  cases v with
  | boolean b => exact .pure trivial
  | _ => simp [DataType.accepts] at accepted

theorem text (type : port.type = .text) :
    Sound typing stack (fun _ => True) (scope.text slot) := by
  refine typed.read found type rfl fun v accepted => ?_
  cases v with
  | text s => exact .pure trivial
  | _ => simp [DataType.accepts] at accepted

theorem list {element : DataType} (type : port.type = .list element) :
    Sound typing stack (fun items => ∀ item ∈ items, element.accepts item = true)
      (scope.list slot) := by
  refine typed.read found type rfl fun v accepted => ?_
  cases v with
  | list items => exact .pure (by simpa [DataType.accepts] using accepted)
  | _ => simp [DataType.accepts] at accepted

omit typed found in
private theorem readVariable_eq {name : String}
    (same : Catalog.variableName.value scope.config = name) :
    Catalog.readVariable scope = (do
      match ← Scope.fetch? (.named name) with
      | some value => return value
      | none => .fail (.unsetVariable name)) := by
  rw [← same]
  rfl

omit found in
theorem readVariable {name : String} {port : Port}
    (uses : form.Uses scope.slots (.named name) port.type)
    (fails : form.MayFail scope.node (.unsetVariable name))
    (same : Catalog.variableName.value scope.config = name) :
    Sound typing stack (fun v => port.type.accepts v = true) (Catalog.readVariable scope) := by
  rw [readVariable_eq same]
  refine (Sound.fetch? typing stack _).bind fun v? fetched => ?_
  cases v? with
  | some v => exact .pure (fetched v _ rfl (typed.uses uses))
  | none => exact .fail (typed.fails fails)

end Scope.Typed

theorem DataType.isSignal_of_ofName? {known : List Schema} {name : String} {type : DataType}
    (found : ofName? known name = some type) : type.isSignal = false := by
  have within : ∀ (n : Nat) (name : List Char), ofNameWithin known n name = some type →
      type.isSignal = false := by
    intro n name found
    cases n with
    | zero => simp [ofNameWithin] at found
    | succ n =>
      simp only [ofNameWithin] at found
      split at found
      · rename_i primitive
        obtain rfl := Option.some.inj found
        unfold primitive? at primitive
        split at primitive <;> simp only [Option.some.injEq, reduceCtorEq] at primitive <;>
          subst primitive <;> rfl
      · split at found
        · obtain ⟨element, -, rfl⟩ := Option.map_eq_some_iff.1 found
          rfl
        · obtain ⟨schema, -, rfl⟩ := Option.map_eq_some_iff.1 found
          rfl
  exact within _ _ found

namespace Catalog

open DataType (accepts)

private theorem eq_of_getElem?_singleton {α : Type} {a b : α} {i : Nat} (found : [a][i]? = some b) :
    i = 0 ∧ b = a := by
  cases i with
  | zero => exact ⟨rfl, (Option.some.inj found).symm⟩
  | succ i => simp at found

private theorem typed_values {type : String} {behavior : Behavior}
    (values : ∀ {config known ports}, behavior.ports config known = .ok ports →
      ∀ port ∈ ports.inputs, port.isSignal = false)
    (defaults : ∀ {config known ports}, behavior.ports config known = .ok ports →
      ports.DefaultsFit)
    (evaluate : ∀ {config known ports}, behavior.ports config known = .ok ports →
      ∀ {typing stack scope}, scope.Typed typing stack ⟨.builtin type, config, ports⟩ →
      ∀ slot port, ports.outputs[slot]? = some port → port.isSignal = false →
        Sound typing stack (fun v => port.type.accepts v = true) (behavior.evaluate scope slot)) :
    behavior.Typed type where
  defaults := defaults
  evaluate := evaluate
  execute := by
    intro config known ports given typing stack scope typed slot port found signal
    rw [values given port (List.mem_of_getElem? found)] at signal
    simp at signal

private theorem typed_signals {type : String} {behavior : Behavior}
    (signals : ∀ {config known ports}, behavior.ports config known = .ok ports →
      ∀ port ∈ ports.outputs, port.isSignal = true)
    (defaults : ∀ {config known ports}, behavior.ports config known = .ok ports →
      ports.DefaultsFit)
    (execute : ∀ {config known ports}, behavior.ports config known = .ok ports →
      ∀ {typing stack scope}, scope.Typed typing stack ⟨.builtin type, config, ports⟩ →
      ∀ slot, Sound typing stack ports.Leads (behavior.execute scope slot)) :
    behavior.Typed type where
  defaults := defaults
  evaluate := by
    intro config known ports given typing stack scope typed slot port found value
    rw [signals given port (List.mem_of_getElem? found)] at value
    simp at value
  execute := fun given _ _ _ typed slot _ _ _ => execute given typed slot

/-- Control goes on at a signal output. -/
theorem leads {ports : Ports} {slot : Nat} {port : Port}
    (found : ports.outputs[slot]? = some port) (signal : port.isSignal = true) :
    ports.Leads (.next slot) := by
  intro other same
  obtain rfl := Flow.next.inj same
  exact ⟨port, found, signal⟩

theorem leads_done (ports : Ports) : ports.Leads .done := by
  intro _ same
  simp at same

private theorem typed_fixedValues {type : String} {behavior : Behavior} {ports : Ports}
    (fixed : ∀ config known, behavior.ports config known = .ok ports)
    (values : ∀ port ∈ ports.inputs, port.isSignal = false) (defaults : ports.DefaultsFit)
    (evaluate : ∀ {config typing stack scope},
      Scope.Typed typing stack ⟨.builtin type, config, ports⟩ scope →
      ∀ slot port, ports.outputs[slot]? = some port → port.isSignal = false →
        Sound typing stack (fun v => port.type.accepts v = true) (behavior.evaluate scope slot)) :
    behavior.Typed type := by
  refine typed_values ?_ ?_ ?_
  · intro config known _ given
    obtain rfl := Except.ok.inj ((fixed config known).symm.trans given)
    exact values
  · intro config known _ given
    obtain rfl := Except.ok.inj ((fixed config known).symm.trans given)
    exact defaults
  · intro config known _ given typing stack scope typed
    obtain rfl := Except.ok.inj ((fixed config known).symm.trans given)
    exact evaluate typed

private theorem typed_fixedSignals {type : String} {behavior : Behavior} {ports : Ports}
    (fixed : ∀ config known, behavior.ports config known = .ok ports)
    (signals : ∀ port ∈ ports.outputs, port.isSignal = true) (defaults : ports.DefaultsFit)
    (execute : ∀ {config typing stack scope},
      Scope.Typed typing stack ⟨.builtin type, config, ports⟩ scope →
      ∀ slot, Sound typing stack ports.Leads (behavior.execute scope slot)) :
    behavior.Typed type := by
  refine typed_signals ?_ ?_ ?_
  · intro config known _ given
    obtain rfl := Except.ok.inj ((fixed config known).symm.trans given)
    exact signals
  · intro config known _ given
    obtain rfl := Except.ok.inj ((fixed config known).symm.trans given)
    exact defaults
  · intro config known _ given typing stack scope typed
    obtain rfl := Except.ok.inj ((fixed config known).symm.trans given)
    exact execute typed

private theorem typed_pure {type name : String} {result : DataType} {ports : Ports}
    {compute : Scope → Run Value} (outputs : ports.outputs = [valuePort name result])
    (values : ∀ port ∈ ports.inputs, port.isSignal = false) (defaults : ports.DefaultsFit)
    (computes : ∀ {config typing stack scope}, Scope.Typed typing stack
      ⟨.builtin type, config, ports⟩ scope →
      Sound typing stack (fun v => result.accepts v = true) (compute scope)) :
    (Behavior.pure ports compute).Typed type := by
  refine typed_fixedValues (fun _ _ => rfl) values defaults fun typed slot port found _ => ?_
  rw [outputs] at found
  obtain ⟨rfl, rfl⟩ := eq_of_getElem?_singleton found
  exact computes typed

private theorem typed_arithmetic (name description : String) (a b : Double)
    {compute : Scope → Double → Double → Run Double}
    (computes : ∀ {config typing stack scope}, Scope.Typed typing stack
      ⟨.builtin ("math/" ++ name), config, numberPorts a b .number⟩ scope →
      ∀ x y, Sound typing stack (fun _ => True) (compute scope x y)) :
    (arithmetic name description a b compute).behavior.Typed ("math/" ++ name) := by
  have values : ∀ port ∈ (numberPorts a b .number).inputs, port.isSignal = false := by
    simp [numberPorts, defaultPort, Port.isSignal, DataType.isSignal]
  have defaults : (numberPorts a b .number).DefaultsFit := by
    simp [Ports.DefaultsFit, numberPorts, defaultPort, DataType.accepts]
  refine typed_pure rfl values defaults fun typed => ?_
  refine (typed.number rfl rfl).bind fun x _ => ?_
  refine (typed.number rfl rfl).bind fun y _ => ?_
  exact (computes typed x y).bind fun _ _ => .pure rfl

theorem ports_of_setting {setting : Setting} {make : DataType → Ports} {config : Json}
    {known : List Schema} {ports : Ports}
    (given : (do return make (← setting.type config known)) = Except.ok (ε := GraphError) ports) :
    ∃ type, type.isSignal = false ∧ ports = make type := by
  obtain ⟨type, named, made⟩ := Accepted.bind_iff.1 given
  exact ⟨type, DataType.isSignal_of_ofName? (Setting.type_eq_ok_iff.1 named),
    (Except.ok.inj made).symm⟩

private theorem typed_list {name description out : String} {ports : DataType → Ports}
    {compute : Scope → List Value → Run Value} (result : DataType → DataType)
    (list : ∀ element, (ports element).inputs[0]? = some (valuePort "list" (.list element)))
    (outputs : ∀ element, (ports element).outputs = [valuePort out (result element)])
    (values : ∀ element, element.isSignal = false →
      ∀ port ∈ (ports element).inputs, port.isSignal = false)
    (defaults : ∀ element, (ports element).DefaultsFit)
    (computes : ∀ {config typing stack scope element}, element.isSignal = false →
      Scope.Typed typing stack ⟨.builtin ("list/" ++ name), config, ports element⟩ scope →
      ∀ items, (∀ item ∈ items, element.accepts item = true) →
        Sound typing stack (fun v => (result element).accepts v = true) (compute scope items)) :
    (listType name description ports compute).behavior.Typed ("list/" ++ name) := by
  refine typed_values ?_ ?_ ?_
  · intro config known _ given
    obtain ⟨element, value, rfl⟩ := ports_of_setting given
    exact values element value
  · intro config known _ given
    obtain ⟨element, -, rfl⟩ := ports_of_setting given
    exact defaults element
  · intro config known _ given typing stack scope typed slot port found _
    obtain ⟨element, value, rfl⟩ := ports_of_setting given
    rw [outputs] at found
    obtain ⟨rfl, rfl⟩ := eq_of_getElem?_singleton found
    exact (typed.list (list element) rfl).bind fun items fit => computes value typed items fit

private theorem typed_carried {β : Type} {type : DataType} {carried : Option β}
    {make : β → Value} {what : String} (fits : ∀ b, type.accepts (make b) = true)
    (allowed : typing.fault (.missingTriggerData what)) :
    Sound typing stack (fun v => type.accepts v = true) (match carried with
      | some value => return make value
      | none => .fail (.missingTriggerData what) : Run Value) := by
  cases carried with
  | none => exact .fail allowed
  | some b => exact .pure (fits b)

private theorem typed_onEvent : onEvent.behavior.Typed onEvent.id := by
  refine typed_fixedValues (fun _ _ => rfl) (by decide) (by decide) ?_
  intro config typing stack scope typed slot port found value
  have allowed (what : String) : typing.fault (.missingTriggerData what) :=
    typed.fails (.trigger rfl what)
  refine (Sound.trigger typing stack).bind fun trigger _ => ?_
  rcases slot with _ | _ | _ | _ | n
  · obtain rfl := Option.some.inj found
    simp [Port.signal, Port.isSignal, DataType.isSignal] at value
  · obtain rfl := Option.some.inj found
    exact typed_carried (fun _ => rfl) (allowed "player")
  · obtain rfl := Option.some.inj found
    exact typed_carried (fun _ => rfl) (allowed "text")
  · obtain rfl := Option.some.inj found
    exact typed_carried (fun _ => rfl) (allowed "number")
  · simp at found

private theorem typed_branch : branch.behavior.Typed branch.id := by
  refine typed_fixedSignals (fun _ _ => rfl) (by decide) (by decide) ?_
  intro config typing stack scope typed slot
  refine (typed.boolean rfl rfl).bind fun holds _ => ?_
  cases holds with
  | true => exact .pure (leads rfl rfl)
  | false => exact .pure (leads rfl rfl)

private theorem typed_repeatWhile : repeatWhile.behavior.Typed repeatWhile.id := by
  refine typed_fixedSignals (fun _ _ => rfl) (by decide) (by decide) ?_
  intro config typing stack scope typed slot
  have check : Sound typing stack (fun _ => True) (scope.boolean 1) := typed.boolean rfl rfl
  have body := typed.fire 0 (.signal "body") rfl rfl
  exact (check.repeatWhile body _).bind fun _ _ => .pure (leads rfl rfl)

private theorem typed_sequence : sequence.behavior.Typed sequence.id := by
  refine typed_signals ?_ ?_ ?_
  · intro config known _ given port mem
    obtain rfl := Except.ok.inj given
    obtain ⟨i, -, rfl⟩ := List.mem_map.1 mem
    rfl
  · intro config known _ given port mem
    obtain rfl := Except.ok.inj given
    obtain rfl := List.mem_singleton.1 mem
    simp [Port.signal]
  · intro config known _ given typing stack scope typed slot
    obtain rfl := Except.ok.inj given
    refine (Sound.forM fun i mem => ?_).bind fun _ _ => .pure (leads_done _)
    refine typed.fire i (.signal s!"then_{i}") ?_ rfl
    have within : i < sequenceLength config := by
      have mem' := List.mem_range.1 mem
      rwa [typed.config] at mem'
    simp [List.getElem?_range within]

private theorem loop_uses (typed : scope.Typed typing stack form)
    (kind : form.kind = .builtin forEach.id) (first second : Port)
    (element : form.ports.outputs[1]? = some first)
    (index : form.ports.outputs[2]? = some second) :
    ∃ a b, scope.slots = [a, b] ∧ typing.var (.slot a) first.type ∧
      typing.var (.slot b) second.type := by
  obtain ⟨a, b, slots⟩ := typed.slots kind
  refine ⟨a, b, slots, typed.uses (.element kind element ?_), typed.uses (.index kind index ?_)⟩
  · rw [slots]
    rfl
  · rw [slots]
    rfl

private theorem typed_slotKey {element index : Slot} (slots : scope.slots = [element, index])
    {i : Nat} {slot : Slot} (here : [element, index][i]? = some slot) :
    scope.slotKey i = Pure.pure (.slot slot) := by
  rw [Scope.slotKey, slots, here]

private theorem typed_loopValue {a b slot : Slot} {type : DataType} {i : Nat}
    (slots : scope.slots = [a, b]) (here : [a, b][i]? = some slot)
    (used : typing.var (.slot slot) type)
    (allowed : typing.fault (.nodeFault scope.node "loop value read outside of the loop body")) :
    Sound typing stack (fun v => type.accepts v = true) (do
      let key ← scope.slotKey i
      match ← Scope.fetch? key with
      | some value => return value
      | none => scope.fault "loop value read outside of the loop body" : Run Value) := by
  rw [typed_slotKey slots here, pure_bind]
  refine (Sound.fetch? typing stack _).bind fun v? fetched => ?_
  cases v? with
  | some v => exact .pure (fetched v type rfl used)
  | none => exact .fail allowed

private theorem typed_forEach : forEach.behavior.Typed forEach.id where
  defaults := by
    intro config known _ given
    obtain ⟨element, -, rfl⟩ := ports_of_setting given
    simp [Ports.DefaultsFit, Port.signal, valuePort]
  evaluate := by
    intro config known _ given typing stack scope typed slot port found value
    obtain ⟨type, -, rfl⟩ := ports_of_setting given
    obtain ⟨a, b, slots, usedElement, usedIndex⟩ := loop_uses typed rfl
      (valuePort "element" type) (valuePort "index" .number) rfl rfl
    have allowed := typed.fails (.loop rfl)
    rcases slot with _ | _ | _ | _ | n
    · obtain rfl := Option.some.inj found
      simp [Port.signal, Port.isSignal, DataType.isSignal] at value
    · obtain rfl := Option.some.inj found
      exact typed_loopValue slots rfl usedElement allowed
    · obtain rfl := Option.some.inj found
      exact typed_loopValue slots rfl usedIndex allowed
    · obtain rfl := Option.some.inj found
      simp [Port.signal, Port.isSignal, DataType.isSignal] at value
    · simp at found
  execute := by
    intro config known _ given typing stack scope typed slot port found signal
    obtain ⟨type, -, rfl⟩ := ports_of_setting given
    obtain ⟨a, b, slots, usedElement, usedIndex⟩ := loop_uses typed rfl
      (valuePort "element" type) (valuePort "index" .number) rfl rfl
    have body := typed.fire 0 (.signal "body") rfl rfl
    have list : Sound typing stack (fun items => ∀ item ∈ items, type.accepts item = true)
        (scope.list 1) := typed.list rfl rfl
    refine list.bind fun items fit => ?_
    rw [typed_slotKey slots rfl, typed_slotKey slots rfl, pure_bind, pure_bind]
    refine (Sound.forM fun item mem => ?_).bind fun _ _ => .pure (leads rfl rfl)
    have accepted := fit item.1 (List.mem_of_getElem? (List.mem_zipIdx_iff_getElem?.1 mem))
    refine (Sound.store fun other used => ?_).bind fun _ _ => ?_
    · rw [DataType.accepts_of_same _ (typing.agree used usedElement)]
      exact accepted
    · refine (Sound.store fun other used => ?_).bind fun _ _ => body
      rw [DataType.accepts_of_same _ (typing.agree used usedIndex)]
      rfl

private theorem typed_log : log.behavior.Typed log.id := by
  refine typed_fixedSignals (fun _ _ => rfl) (by decide) (by decide) ?_
  intro config typing stack scope typed slot
  exact (typed.text rfl rfl).bind fun _ _ => .pure (leads rfl rfl)

private theorem typed_message : message.behavior.Typed message.id := by
  refine typed_fixedSignals (fun _ _ => rfl) (by decide) (by decide) ?_
  intro config typing stack scope typed slot
  have sent (recipient : Option String) (text : String) :
      Sound typing stack (fun _ => True) (Scope.send recipient text) :=
    Sound.aside (fun _ => rfl) fun _ => rfl
  refine (typed.text rfl rfl).bind fun text _ => ?_
  refine (typed.input 2 (valuePort "player" .player) rfl rfl).orMissing.bind fun v? fits => ?_
  cases v? with
  | none =>
    refine (Sound.trigger typing stack).bind fun trigger _ => ?_
    exact (sent trigger.player text).bind fun _ _ => .pure (leads rfl rfl)
  | some v =>
    have accepted := fits v rfl
    cases v with
    | player name => exact (sent (some name) text).bind fun _ _ => .pure (leads rfl rfl)
    | _ => simp [valuePort, DataType.accepts] at accepted

private theorem typed_literal {value : Value} {type : DataType} {config : Json}
    (read : literal config = .ok value) (fits : type.accepts value = true) :
    Sound typing stack (fun v => type.accepts v = true) (match literal config with
      | .ok value => return value
      | .error why => .fail (.invalidConfig scope.node why)) := by
  rw [read]
  exact .pure fits

private theorem typed_constant : constant.behavior.Typed constant.id := by
  have declared {config : Json} {known : List Schema} {ports : Ports}
      (given : constant.behavior.ports config known = .ok ports) :
      ∃ value type, literal config = .ok value ∧ type.accepts value = true ∧
        ports = { inputs := [], outputs := [valuePort "value" type] } := by
    obtain ⟨value, read, given⟩ := Accepted.bind_iff.1 given
    obtain ⟨type, primitive, given⟩ := Accepted.bind_iff.1 given
    refine ⟨value, type, read, ?_, (Except.ok.inj given).symm⟩
    cases value <;> simp only [literalType, Except.ok.injEq, reduceCtorEq] at primitive <;>
      subst primitive <;> rfl
  refine typed_values ?_ ?_ ?_
  · intro config known _ given
    obtain ⟨value, type, -, -, rfl⟩ := declared given
    simp
  · intro config known _ given
    obtain ⟨value, type, -, -, rfl⟩ := declared given
    simp [Ports.DefaultsFit]
  · intro config known _ given typing stack scope typed slot port found _
    obtain ⟨value, type, read, fits, rfl⟩ := declared given
    obtain ⟨rfl, rfl⟩ := eq_of_getElem?_singleton found
    have read : literal scope.config = .ok value := by
      rw [typed.config]
      exact read
    exact typed_literal read fits

private theorem typed_getVariable : getVariable.behavior.Typed getVariable.id := by
  refine typed_values ?_ ?_ ?_
  · intro config known _ given
    obtain ⟨type, -, rfl⟩ := ports_of_setting given
    simp
  · intro config known _ given
    obtain ⟨type, -, rfl⟩ := ports_of_setting given
    simp [Ports.DefaultsFit]
  · intro config known _ given typing stack scope typed slot port found _
    obtain ⟨type, -, rfl⟩ := ports_of_setting given
    obtain ⟨rfl, rfl⟩ := eq_of_getElem?_singleton found
    exact typed.readVariable (.get rfl rfl) (.get rfl) (by rw [typed.config])

private theorem typed_setVariable : setVariable.behavior.Typed setVariable.id where
  defaults := by
    intro config known _ given
    obtain ⟨type, -, rfl⟩ := ports_of_setting given
    simp [Ports.DefaultsFit, Port.signal, valuePort]
  evaluate := by
    intro config known _ given typing stack scope typed slot port found value
    obtain ⟨type, -, rfl⟩ := ports_of_setting given
    rcases slot with _ | _ | n
    · obtain rfl := Option.some.inj found
      simp [Port.signal, Port.isSignal, DataType.isSignal] at value
    · obtain rfl := Option.some.inj found
      exact typed.readVariable (.set rfl rfl) (.set rfl) (by rw [typed.config])
    · simp at found
  execute := by
    intro config known _ given typing stack scope typed slot port found signal
    obtain ⟨type, value, rfl⟩ := ports_of_setting given
    have used : typing.var (.named (variableName.value scope.config)) type := by
      rw [typed.config]
      exact typed.uses (@Form.Uses.set _ _ (valuePort "value" type) rfl rfl)
    refine (typed.input 1 (valuePort "value" type) rfl value).bind fun v accepted => ?_
    refine (Sound.store fun other used' => ?_).bind fun _ _ => .pure (leads rfl rfl)
    rw [DataType.accepts_of_same _ (typing.agree used' used)]
    exact accepted

private theorem typed_divide : divide.behavior.Typed divide.id := by
  refine typed_arithmetic _ _ _ _ fun typed x y => ?_
  split
  · exact .fail (typed.fails (.division rfl))
  · exact .pure trivial

private theorem typed_random : random.behavior.Typed random.id := by
  refine typed_pure rfl (by decide) (by decide) fun typed => ?_
  refine (typed.number rfl rfl).bind fun low _ => ?_
  refine (typed.number rfl rfl).bind fun high _ => ?_
  split
  · exact .pure rfl
  · exact (Sound.random _ _ _ low high).bind fun n _ => .pure rfl

private theorem typed_compare : compare.behavior.Typed compare.id := by
  have declared {config : Json} {known : List Schema} {ports : Ports}
      (given : compare.behavior.ports config known = .ok ports) :
      ∃ holds, comparison? (operator.value config) = some holds ∧
        ports = numberPorts 0 0 .boolean := by
    simp only [compare] at given
    split at given
    · rename_i known'
      obtain ⟨holds, found⟩ := Option.isSome_iff_exists.1 known'
      exact ⟨holds, found, (Except.ok.inj given).symm⟩
    · simp at given
  refine typed_values ?_ ?_ ?_
  · intro config known _ given
    obtain ⟨holds, -, rfl⟩ := declared given
    decide
  · intro config known _ given
    obtain ⟨holds, -, rfl⟩ := declared given
    decide
  · intro config known _ given typing stack scope typed slot port found _
    obtain ⟨holds, sign, rfl⟩ := declared given
    obtain ⟨rfl, rfl⟩ := eq_of_getElem?_singleton found
    refine (typed.number rfl rfl).bind fun x _ => ?_
    refine (typed.number rfl rfl).bind fun y _ => ?_
    dsimp only
    rw [typed.config, sign]
    exact .pure rfl

private theorem typed_and : and.behavior.Typed and.id := by
  refine typed_pure rfl (by decide) (by decide) fun typed => ?_
  refine (typed.boolean rfl rfl).bind fun a _ => ?_
  cases a with
  | true => exact (typed.boolean rfl rfl).bind fun _ _ => .pure rfl
  | false => exact .pure rfl

private theorem typed_or : or.behavior.Typed or.id := by
  refine typed_pure rfl (by decide) (by decide) fun typed => ?_
  refine (typed.boolean rfl rfl).bind fun a _ => ?_
  cases a with
  | true => exact .pure rfl
  | false => exact (typed.boolean rfl rfl).bind fun _ _ => .pure rfl

private theorem typed_not : not.behavior.Typed not.id := by
  refine typed_pure rfl (by decide) (by decide) fun typed => ?_
  refine (typed.boolean rfl rfl).bind fun _ _ => ?_
  exact .pure rfl

private theorem typed_concat : concat.behavior.Typed concat.id := by
  refine typed_pure rfl (by decide) (by decide) fun typed => ?_
  refine (typed.text rfl rfl).bind fun _ _ => ?_
  refine (typed.text rfl rfl).bind fun _ _ => ?_
  exact .pure rfl

private theorem typed_toText : toText.behavior.Typed toText.id := by
  refine typed_values ?_ ?_ ?_
  · intro config known _ given
    obtain ⟨type, value, rfl⟩ := ports_of_setting given
    simpa [valuePort, Port.isSignal] using value
  · intro config known _ given
    obtain ⟨type, -, rfl⟩ := ports_of_setting given
    simp [Ports.DefaultsFit, valuePort]
  · intro config known _ given typing stack scope typed slot port found _
    obtain ⟨type, value, rfl⟩ := ports_of_setting given
    obtain ⟨rfl, rfl⟩ := eq_of_getElem?_singleton found
    exact (typed.input 0 (valuePort "value" type) rfl value).bind fun _ _ => .pure rfl

private theorem typed_listLength : listLength.behavior.Typed listLength.id := by
  refine typed_list (fun _ => .number) (fun _ => rfl) (fun _ => rfl) ?_ ?_ ?_
  · intro element _
    simp [valuePort, Port.isSignal, DataType.isSignal]
  · intro element
    simp [Ports.DefaultsFit, valuePort]
  · intro config typing stack scope element _ typed items _
    exact .pure rfl

private theorem typed_listGet : listGet.behavior.Typed listGet.id := by
  refine typed_list (fun element => element) (fun _ => rfl) (fun _ => rfl) ?_ ?_ ?_
  · intro element _
    simp [valuePort, defaultPort, Port.isSignal, DataType.isSignal]
  · intro element
    simp [Ports.DefaultsFit, valuePort, defaultPort, DataType.accepts]
  · intro config typing stack scope element _ typed items fit
    refine (typed.number rfl rfl).bind fun index _ => ?_
    split
    · rename_i item found
      obtain ⟨i, -, found⟩ := Option.bind_eq_some_iff.1 found
      exact .pure (fit item (List.mem_of_getElem? found))
    · exact .fail (typed.fails (.range rfl index.text items.length))

private theorem typed_listAppend : listAppend.behavior.Typed listAppend.id := by
  refine typed_list DataType.list (fun _ => rfl) (fun _ => rfl) ?_ ?_ ?_
  · intro element value port mem
    rcases List.mem_pair.1 mem with rfl | rfl
    · rfl
    · exact value
  · intro element
    simp [Ports.DefaultsFit, valuePort]
  · intro config typing stack scope element value typed items fit
    refine (typed.input 1 (valuePort "item" element) rfl value).bind fun item accepted => ?_
    refine .pure ?_
    simp only [DataType.accepts, List.all_eq_true, List.mem_append, List.mem_singleton]
    rintro v (mem | rfl)
    · exact fit v mem
    · exact accepted

theorem accepts_field {fields : List (String × DataType)} {values : List (String × Value)}
    {field : String} {type : DataType} (fit : DataType.acceptsFields fields values = true)
    (found : fields.lookup field = some type) :
    ∃ v, values.lookup field = some v ∧ type.accepts v = true := by
  induction fields generalizing values with
  | nil => simp at found
  | cons first fields ih =>
    obtain ⟨m, a⟩ := first
    cases values with
    | nil => simp [DataType.acceptsFields] at fit
    | cons value values =>
      obtain ⟨n, v⟩ := value
      simp only [DataType.acceptsFields, Bool.and_eq_true, beq_iff_eq] at fit
      obtain ⟨⟨rfl, accepted⟩, rest⟩ := fit
      rw [List.lookup_cons] at found ⊢
      split at found
      · rw [Option.some.inj found] at accepted
        exact ⟨v, rfl, accepted⟩
      · exact ih rest found

private theorem typed_getField : getField.behavior.Typed getField.id := by
  have declared {config : Json} {known : List Schema} {ports : Ports}
      (given : getField.behavior.ports config known = .ok ports) :
      ∃ schema type, schema.fields.lookup (fieldName.value config) = some type ∧
        ports = { inputs := [valuePort "value" (Schema.type schema)],
                  outputs := [valuePort (fieldName.value config) type] } := by
    simp only [getField] at given
    split at given
    · simp at given
    · split at given
      · simp at given
      · rename_i schema _ _ type found
        exact ⟨schema, type, found, (Except.ok.inj given).symm⟩
  refine typed_values ?_ ?_ ?_
  · intro config known _ given
    obtain ⟨schema, type, -, rfl⟩ := declared given
    simp [valuePort, Port.isSignal, Schema.type, DataType.isSignal]
  · intro config known _ given
    obtain ⟨schema, type, -, rfl⟩ := declared given
    simp [Ports.DefaultsFit, valuePort]
  · intro config known _ given typing stack scope typed slot port found _
    obtain ⟨schema, type, field, rfl⟩ := declared given
    obtain ⟨rfl, rfl⟩ := eq_of_getElem?_singleton found
    refine typed.read rfl rfl rfl fun v accepted => ?_
    rw [typed.config]
    cases v with
    | struct name values =>
      obtain ⟨v, here, fits⟩ := accepts_field accepted field
      rw [Value.field?, here]
      exact .pure fits
    | _ => exact absurd accepted Bool.false_ne_true

theorem all_typed {type : NodeType} (h : type ∈ all) : type.behavior.Typed type.id := by
  simp only [all, List.mem_cons, List.not_mem_nil, or_false] at h
  rcases h with rfl | rfl | rfl | rfl | rfl | rfl | rfl | rfl | rfl | rfl | rfl | rfl | rfl | rfl |
    rfl | rfl | rfl | rfl | rfl | rfl | rfl | rfl | rfl | rfl | rfl
  · exact typed_onEvent
  · exact typed_branch
  · exact typed_repeatWhile
  · exact typed_forEach
  · exact typed_sequence
  · exact typed_log
  · exact typed_message
  · exact typed_constant
  · exact typed_getVariable
  · exact typed_setVariable
  · exact typed_arithmetic _ _ _ _ fun _ _ _ => .pure trivial
  · exact typed_arithmetic _ _ _ _ fun _ _ _ => .pure trivial
  · exact typed_arithmetic _ _ _ _ fun _ _ _ => .pure trivial
  · exact typed_divide
  · exact typed_random
  · exact typed_compare
  · exact typed_and
  · exact typed_or
  · exact typed_not
  · exact typed_concat
  · exact typed_toText
  · exact typed_listLength
  · exact typed_listGet
  · exact typed_listAppend
  · exact typed_getField

end Catalog

/-- Nodes of all types of a registry keep to their ports. -/
def Registry.Typed (registry : Registry) : Prop :=
  ∀ id behavior, registry.behavior? id = some behavior → behavior.Typed id

theorem Registry.builtin_typed : builtin.Typed := by
  intro id behavior found
  obtain ⟨type, registered, rfl⟩ := Option.map_eq_some_iff.1 found
  obtain ⟨mem, rfl⟩ := mem_of_find? registered
  exact Catalog.all_typed mem

end NodeScript
