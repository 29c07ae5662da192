import NodeScript.Proofs.Format.Loaded
import NodeScript.Proofs.Graph.Looped

/-!
Authored graphs: the empty graph and loaded ones, and what edits make of them, where every step
may go by other node types. Main statements: authored graphs are well-formed, their wires agree at
both ends (`Graph.Authored.wires_agree`), and values refuse only loops
(`Graph.Authored.only_loops_refused`).
-/

set_option autoImplicit false
set_option relaxedAutoImplicit false

namespace NodeScript

open Decode Format NodeScript.Graph Relation

theorem DataType.accepts_eq_false_of_isSignal {type : DataType} (signal : type.isSignal = true)
    (value : Value) : type.accepts value = false := by
  cases type <;> simp only [isSignal, Bool.false_eq_true] at signal
  cases value <;> rfl

namespace Graph

def Begins (catalogs : Registry → Prop) (graph : Graph) : Prop :=
  graph = .empty ∨ ∃ registry steps file loaded, catalogs registry ∧
    decodeWith steps registry file = .ok loaded ∧ graph = loaded.graph

/-- The graphs that begin empty or in a file of any version, and what accepted edits of an allowed
kind make of them. -/
def Authored (catalogs : Registry → Prop) (allowed : Graph → Edit → Prop) : Graph → Prop :=
  Reached (Begins catalogs) (Edit.Leads catalogs allowed)

variable {catalogs : Registry → Prop} {allowed : Graph → Edit → Prop} {graph : Graph}

theorem Authored.of_reached (reached : Reached (· = .empty) (Edit.Leads catalogs allowed) graph) :
    graph.Authored catalogs allowed := by
  exact reached.mono (fun _ => .inl) fun _ _ => id

/-- Whatever the node types are, the rest is in order. -/
theorem Authored.wellFormed (authored : graph.Authored catalogs allowed) :
    graph.WellFormed fun _ _ _ => True := by
  refine Reached.wellFormed (fun _ _ _ _ _ _ => trivial) ?_ authored
  rintro first (rfl | ⟨registry, steps, file, loaded, -, decoded, rfl⟩)
  · exact wellFormed_empty
  · exact (decodeWith_wellFormed decoded).imp fun _ _ _ _ => trivial

def Enters (graph : Graph) (source : OutputRef) (target : InputRef) : Prop :=
  ∃ input, graph.input? target = some input ∧ ∃ wire ∈ input.wires, wire.source = source

/-- An output keeps a wire to an input. -/
def Leaves (graph : Graph) (source : OutputRef) (target : InputRef) : Prop :=
  ∃ output, graph.output? source = some output ∧ target ∈ output.targets

/-- Both ends tell of the same wires, each of which joins two ports of one type; where there is
room for one wire there is at most one; and literals are of the types of their inputs. -/
structure WiresAgree (graph : Graph) : Prop where
  ends : ∀ source target, graph.Enters source target ↔ graph.Leaves source target
  placed : ∀ source target, graph.Enters source target →
    (graph.output? source).isSome ∧ (graph.input? target).isSome
  distinctSources : ∀ target input, graph.input? target = some input →
    (input.wires.map (·.source)).Nodup
  distinctTargets : ∀ source output, graph.output? source = some output → output.targets.Nodup
  oneSource : ∀ target input, graph.input? target = some input → input.port.isSignal = false →
    input.wires.length ≤ 1
  oneTarget : ∀ source output, graph.output? source = some output → output.port.isSignal = true →
    output.targets.length ≤ 1
  types : ∀ source target output input, graph.Enters source target →
    graph.output? source = some output → graph.input? target = some input →
    output.port.type.same input.port.type = true
  literals : ∀ target input value, graph.input? target = some input →
    input.inset = some value → input.port.type.accepts value = true
  noLiterals : ∀ target input, graph.input? target = some input → input.port.isSignal = true →
    input.inset = none

theorem Wired.enters_iff_leaves (wired : graph.Wired) (source : OutputRef) (target : InputRef) :
    graph.Enters source target ↔ graph.Leaves source target := by
  constructor
  · rintro ⟨input, hi, wire, hw, rfl⟩
    obtain ⟨output, ho, ht, -⟩ := wired.source hi hw
    exact ⟨output, ho, ht⟩
  · rintro ⟨output, ho, ht⟩
    exact wired.target ho ht

theorem WellFormed.wiresAgree {admits : Admits} (formed : graph.WellFormed admits) :
    graph.WiresAgree where
  ends := formed.wired.enters_iff_leaves
  placed source target enters := by
    obtain ⟨output, ho, -⟩ := (formed.wired.enters_iff_leaves source target).1 enters
    obtain ⟨input, hi, -⟩ := enters
    rw [ho, hi]
    exact ⟨rfl, rfl⟩
  distinctSources _ _ hi := formed.wired.nodupSources hi
  distinctTargets _ _ ho := formed.wired.nodupTargets ho
  oneSource _ _ hi := formed.wired.oneSource hi
  oneTarget _ _ ho := formed.wired.oneTarget ho
  types source target output input enters ho hi := by
    obtain ⟨input', hi', wire, hw, rfl⟩ := enters
    obtain ⟨output', ho', -, same⟩ := formed.wired.source hi' hw
    cases hi.symm.trans hi'
    cases ho.symm.trans ho'
    exact same
  literals := formed.insets
  noLiterals target input hi signal := by
    cases hv : input.inset with
    | none => rfl
    | some value =>
      have accepted := formed.insets target input value hi hv
      rw [DataType.accepts_eq_false_of_isSignal signal] at accepted
      simp at accepted

/-- The wires of authored graphs agree at both their ends, and their literals fit. -/
theorem Authored.wires_agree (authored : graph.Authored catalogs allowed) : graph.WiresAgree :=
  authored.wellFormed.wiresAgree

end Graph

/-- An event that leads to one branch and then to another. -/
def Edit.crossing : List Edit := [
  .addBuiltin "event/On" (.obj [("event", .str "go")]) .zero,
  .addBuiltin "flow/Branch" .null .zero,
  .addBuiltin "flow/Branch" .null .zero,
  .setInset ⟨⟨2⟩, 1⟩ (some (.boolean true)),
  .connect ⟨⟨0⟩, 0⟩ ⟨⟨1⟩, 0⟩ [],
  .connect ⟨⟨1⟩, 1⟩ ⟨⟨2⟩, 0⟩ [.zero],
  .connect ⟨⟨0⟩, 0⟩ ⟨⟨2⟩, 0⟩ []]

theorem crossing_wires_agree : ∃ graph,
    Edit.crossing.foldlM (Edit.apply Registry.builtin) .empty = .ok graph ∧
      graph.Authored (fun _ => True) (fun _ _ => True) ∧
      graph.wireCount = 2 ∧ graph.signalTarget? ⟨⟨0⟩, 0⟩ = some ⟨⟨2⟩, 0⟩ ∧ graph.WiresAgree := by
  have facts : ∃ graph ∈ (Edit.crossing.foldlM (Edit.apply Registry.builtin) .empty).toOption,
      graph.wireCount = 2 ∧ graph.signalTarget? ⟨⟨0⟩, 0⟩ = some ⟨⟨2⟩, 0⟩ := by decide +kernel
  obtain ⟨graph, built, two, leads⟩ := facts
  have built := Accepted.toOption_eq_some_iff.1 built
  have authored : graph.Authored (fun _ => True) (fun _ _ => True) :=
    .of_reached (Reached.foldlM trivial (.first rfl) (fun _ _ _ => trivial) built)
  exact ⟨graph, built, authored, two, leads, authored.wires_agree⟩

/-- Values never depend on themselves. A wire between ports of one type of values is refused
exactly when it would change that. -/
theorem Graph.Authored.only_loops_refused {catalogs : Registry → Prop}
    {allowed : Graph → Edit → Prop} {graph : Graph} (authored : graph.Authored catalogs allowed) :
    graph.Acyclic ∧
      ∀ source target output input relays, graph.output? source = some output →
        graph.input? target = some input → output.port.type.same input.port.type = true →
        output.port.isSignal = false →
        (graph.connect source target relays = .error (.valueLoop target.node) ↔
            ∃ id, TransGen (graph.ReadsWith source target) id id) ∧
          ((¬∃ id, TransGen (graph.ReadsWith source target) id id) →
            ∃ next, graph.connect source target relays = .ok next ∧
              ∀ id other, next.Reads id other ↔ graph.ReadsWith source target id other) := by
  have formed := authored.wellFormed
  exact ⟨formed.acyclic, fun _ _ _ _ relays outputAt inputAt same value =>
    formed.wired.connect_value formed.acyclic outputAt inputAt same value relays⟩

def Edit.adding : List Edit := [
  .addBuiltin "math/Add" .null .zero,
  .addBuiltin "math/Add" .null .zero,
  .connect ⟨⟨0⟩, 0⟩ ⟨⟨1⟩, 0⟩ []]

theorem adding_only_loops_refused : ∃ graph,
    Edit.adding.foldlM (Edit.apply Registry.builtin) .empty = .ok graph ∧
      graph.Authored (fun _ => True) (fun _ _ => True) ∧
      graph.connect ⟨⟨1⟩, 0⟩ ⟨⟨0⟩, 1⟩ [] = .error (.valueLoop ⟨0⟩) ∧
      ∃ id, TransGen (graph.ReadsWith ⟨⟨1⟩, 0⟩ ⟨⟨0⟩, 1⟩) id id := by
  have facts : ∃ graph ∈ (Edit.adding.foldlM (Edit.apply Registry.builtin) .empty).toOption,
      (∃ output ∈ graph.output? ⟨⟨1⟩, 0⟩, ∃ input ∈ graph.input? ⟨⟨0⟩, 1⟩,
          output.port.type.same input.port.type = true ∧ output.port.isSignal = false) ∧
        ∃ input ∈ graph.input? ⟨⟨1⟩, 0⟩, input.port.isSignal = false ∧
          ∃ wire ∈ input.wires, wire.source.node = ⟨0⟩ := by decide +kernel
  obtain ⟨graph, built, ⟨output, outputAt, input, inputAt, same, value⟩, summand, summandAt, number,
    wire, hw, first⟩ := facts
  have built := Accepted.toOption_eq_some_iff.1 built
  have authored : graph.Authored (fun _ => True) (fun _ _ => True) :=
    .of_reached (Reached.foldlM trivial (.first rfl) (fun _ _ _ => trivial) built)
  have elsewhere : (⟨⟨1⟩, 0⟩ : InputRef) ≠ ⟨⟨0⟩, 1⟩ := by decide
  have back : graph.ReadsWith ⟨⟨1⟩, 0⟩ ⟨⟨0⟩, 1⟩ ⟨1⟩ wire.source.node :=
    .kept elsewhere summandAt number hw
  rw [first] at back
  have loop : ∃ id, TransGen (graph.ReadsWith ⟨⟨1⟩, 0⟩ ⟨⟨0⟩, 1⟩) id id :=
    ⟨⟨0⟩, .tail (.single .new) back⟩
  have refused := (authored.only_loops_refused.2 ⟨⟨1⟩, 0⟩ ⟨⟨0⟩, 1⟩ output input [] outputAt inputAt
    same value).1.2 loop
  exact ⟨graph, built, authored, refused, loop⟩

end NodeScript
