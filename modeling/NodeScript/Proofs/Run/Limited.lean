import NodeScript.Proofs.Run.Isolated
import NodeScript.Proofs.Run.Vacated

/-!
What the limit on open calls does to a run. `Machine.confined` runs the parts of a machine and
raises an alarm wherever more frames are open than there is room for; that it makes no difference
says that so many are never open. Main statement: `Graph.emit_limited`.
-/

set_option autoImplicit false
set_option relaxedAutoImplicit false

namespace NodeScript

open Run Context

namespace Run

variable {α : Type} {delay : Delay} {room : Nat} {acts : Prop} {run run' : Run α}

/-- Raises an alarm where more frames are open than there is room for, before a part or after it. -/
def confined (room : Nat) (alarm : Stop) (run : Run α) : Run α := fun ctx =>
  if room < ctx.depth then (.error alarm, ctx)
  else
    let (result, after) := run.runAt ctx
    if room < after.depth then (.error alarm, after) else (result, after)

theorem runAt_confined (run : Run α) (alarm : Stop) (ctx : Context) :
    (run.confined room alarm).runAt ctx =
      if room < ctx.depth then (.error alarm, ctx)
      else if room < (run.runAt ctx).2.depth then (.error alarm, (run.runAt ctx).2)
      else run.runAt ctx := rfl

/-- No alarm is raised by a part that keeps the frames that are open. -/
theorem Agrees.confined (agrees : Agrees delay room acts run run') (alarm : Stop) :
    Agrees delay room acts (run.confined room alarm) run' := by
  intro ctx within
  obtain ⟨same, kept⟩ := agrees ctx within
  have before : ¬room < ctx.depth := Nat.not_lt.2 within.depth
  have after : ¬room < (run'.runAt ctx).2.depth := Nat.not_lt.2 (kept.within within).depth
  refine ⟨?_, kept⟩
  rw [runAt_confined, same]
  show (if room < ctx.depth then _ else if room < (run'.runAt ctx).2.depth then _ else _) = _
  rw [if_neg before, if_neg after]

end Run

namespace Machine

variable {machine : Machine} {delay : Delay} {room : Nat}

/-- The parts with an alarm in each of them. -/
def Parts.confined (room : Nat) (alarm : Stop) (parts : Parts) : Parts where
  fire source := (parts.fire source).confined room alarm
  execute target := (parts.execute target).confined room alarm
  pull target := (parts.pull target).confined room alarm
  evaluate source := (parts.evaluate source).confined room alarm

/-- The parts of a run in which an alarm is raised at the beginning and at the end of each part if
more frames are open then than there is room for. A frame is opened only for a part that begins in
it, or at the end of a part. -/
def confined (machine : Machine) (room : Nat) (alarm : Stop) : Nat → Parts
  | 0 => (machine.parts 0).confined room alarm
  | fuel + 1 => (machine.partsWith fuel (machine.confined room alarm fuel)).confined room alarm

/-- Runs from an entry point with an alarm in each part. -/
def emitConfined (machine : Machine) (room : Nat) (alarm : Stop) (fuel : Nat)
    (entry : EntryPoint) : Run Unit :=
  match machine.program.entries.root? entry with
  | some root => (machine.confined room alarm fuel).fire root
  | none => .fail (.unknownEntryPoint entry)

theorem Parts.Agree.confined {parts parts' : Parts} (agree : parts.Agree delay room parts')
    (alarm : Stop) : (parts.confined room alarm).Agree delay room parts' where
  fire source := (agree.fire source).confined alarm
  execute target := (agree.execute target).confined alarm
  pull target := (agree.pull target).confined alarm
  evaluate source := (agree.evaluate source).confined alarm

theorem confined_agree (limit : machine.maxCallDepth < room)
    (made : ∀ id behavior, machine.program.behavior? id = some behavior → behavior.Made)
    (alarm : Stop) (fuel : Nat) :
    (machine.confined room alarm fuel).Agree .none room (machine.parts fuel) := by
  have closes (ctx : Context) (_ : ctx.callers ≠ []) : Context.pop ctx = ctx.pop := rfl
  have redraws (_ : True) : Delay.none.redraw = id := rfl
  induction fuel with
  | zero => exact (parts_agree limit redraws made 0).confined alarm
  | succ fuel ih => exact (agrees_partsWith ih closes limit redraws made).confined alarm

theorem emit_follows_of_le (machine : Machine)
    (parametric : ∀ id behavior, machine.program.behavior? id = some behavior →
      behavior.Parametric) {more : Nat} (less : machine.maxCallDepth ≤ more) (fuel : Nat)
    (entry : EntryPoint) :
    Run.Follows (· = .fault (.callDepthExceeded machine.maxCallDepth)) (machine.emit fuel entry)
      ({ machine with maxCallDepth := more }.emit fuel entry) := by
  have simulates : Simulates (· = .fault (.callDepthExceeded machine.maxCallDepth))
      (fun _ => True) (fun _ _ => False) (fun _ read => read) machine
      { machine with maxCallDepth := more } :=
    { Simulates.refl machine (fun _ _ => by simp) parametric fun _ _ _ follows => follows with
      limit := .inr ⟨less, rfl⟩ }
  rw [← machine.emitWatched_eq_emit]
  exact simulates.emit_follows rfl (fun _ _ _ => trivial) entry

end Machine

/-- No run has more frames open than that in which it began and those of the calls that may be open,
and a limit on these changes a run only where the run ends because of it. -/
theorem Graph.emit_limited (graph : Graph) (limit fuel : Nat) (entry : EntryPoint)
    (trigger : Trigger) (draws : Draws) :
    let machine := graph.machine .builtin limit
    let start : Context := .ofTrigger trigger draws
    (∀ alarm, (machine.emitConfined (limit + 1) alarm fuel entry).runAt start =
      (machine.emit fuel entry).runAt start) ∧
    ∀ more, limit ≤ more →
      ((machine.emit fuel entry).runAt start).1 ≠ .error (.fault (.callDepthExceeded limit)) →
        ((graph.machine .builtin more).emit fuel entry).runAt start =
          (machine.emit fuel entry).runAt start := by
  intro machine start
  refine ⟨fun alarm => ?_, fun more less within => ?_⟩
  · -- One frame is open when the run begins, and each call opens one more.
    have agree : (machine.confined (limit + 1) alarm fuel).Agree .none (limit + 1)
        (machine.parts fuel) :=
      Machine.confined_agree (Nat.lt_succ_self limit) (fun _ _ => Graph.made_machine) alarm fuel
    unfold Machine.emitConfined Machine.emit
    cases machine.program.entries.root? entry with
    | none => rfl
    | some root => exact (agree.fire root start ⟨rfl, Nat.le_add_left 1 limit⟩).1
  · -- Only the fault of the lower limit is excused, and no part of a run goes on after it.
    have follows := machine.emit_follows_of_le
      (fun _ _ found => Graph.parametric_of_machine Registry.builtin_parametric found) less fuel
      entry
    rcases follows start with ⟨stop, ctx, stopped, rfl⟩ | same
    · exact absurd (congrArg Prod.fst stopped) within
    · exact same.symm

def Edit.calling : List Edit := [
  .defineFunction { name := "f", inputs := [("in", .signal)], outputs := [("out", .signal)] } .zero,
  .connect ⟨⟨0⟩, 0⟩ ⟨⟨1⟩, 0⟩ [],
  .addBuiltin "event/On" (.obj [("event", .str "go")]) .zero,
  .addCall ⟨0⟩ .zero,
  .connect ⟨⟨2⟩, 0⟩ ⟨⟨3⟩, 0⟩ []]

theorem calling_limited : ∃ graph,
    Edit.calling.foldlM (Edit.apply Registry.builtin) .empty = .ok graph ∧
      let start : Context := { trigger := { event := "go" } }
      (((graph.machine .builtin 0).emit 8 ⟨0⟩).runAt start).1 =
        .error (.fault (.callDepthExceeded 0)) ∧
      (((graph.machine .builtin 1).emitConfined 1 .outOfFuel 8 ⟨0⟩).runAt start).1 =
        .error .outOfFuel ∧
      ((graph.machine .builtin 1).emitConfined 2 .outOfFuel 8 ⟨0⟩).runAt start =
        ((graph.machine .builtin 1).emit 8 ⟨0⟩).runAt start ∧
      (((graph.machine .builtin 1).emit 8 ⟨0⟩).runAt start).1 = .ok () ∧
      ((graph.machine .builtin 8).emit 8 ⟨0⟩).runAt start =
        ((graph.machine .builtin 1).emit 8 ⟨0⟩).runAt start := by
  have facts : ∃ graph ∈ (Edit.calling.foldlM (Edit.apply Registry.builtin) .empty).toOption,
      let start : Context := { trigger := { event := "go" } }
      (((graph.machine .builtin 0).emit 8 ⟨0⟩).runAt start).1 =
          .error (.fault (.callDepthExceeded 0)) ∧
        (((graph.machine .builtin 1).emitConfined 1 .outOfFuel 8 ⟨0⟩).runAt start).1 =
          .error .outOfFuel ∧
        (((graph.machine .builtin 1).emit 8 ⟨0⟩).runAt start).1 = .ok () := by
    decide +kernel
  obtain ⟨graph, built, stopped, alarmed, done⟩ := facts
  obtain ⟨quiet, deeper⟩ := graph.emit_limited 1 8 ⟨0⟩ { event := "go" } default
  refine ⟨graph, Accepted.toOption_eq_some_iff.1 built, stopped, alarmed, quiet .outOfFuel, done,
    deeper 8 (by decide) fun exceeded => ?_⟩
  exact absurd (done.symm.trans exceeded) (by decide)

end NodeScript
