import NodeScript.Proofs.Format.RoundTrip

/-!
Files that are read where some types of nodes are not registered. Main statement: just the nodes of
these types and the wires that touch them are left out, as if the nodes had been removed before
(`Reached.unregistered`).
-/

set_option autoImplicit false
set_option relaxedAutoImplicit false

namespace NodeScript

open Format NodeScript.Graph

/-- A registry without the types whose ids pass a test. -/
def Registry.without (missing : String → Bool) (registry : Registry) : Registry :=
  ⟨registry.types.filter fun entry => !missing entry.1⟩

namespace Registry

variable {missing : String → Bool} {registry : Registry}

theorem behavior?_without (type : String) : (registry.without missing).behavior? type =
    if missing type then none else registry.behavior? type := by
  rw [behavior?, find?, without, Assoc.lookup_filter (fun type => !missing type)]
  cases missing type <;> rfl

theorem within_without (missing : String → Bool) (registry : Registry) :
    (registry.without missing).Within registry := by
  intro type behavior found
  rw [behavior?_without] at found
  split at found
  · simp at found
  · exact found

end Registry

variable {registry : Registry} {graph : Graph} {missing : String → Bool} {gone : List NodeId}

theorem Graph.Settled.gapped (settled : graph.Settled registry)
    (listed : ∀ id, id ∈ gone ↔ ∃ type, missing type ∧ graph.HasKind id (.builtin type)) :
    graph.Gapped (registry.without missing) gone := by
  intro id node found
  rw [Bool.eq_iff_iff, List.contains_iff_mem, listed]
  have own : graph.HasKind id node.kind := hasKind_iff.2 ⟨node, found, rfl⟩
  unfold Registry.lacks
  cases kind : node.kind with
  | builtin type =>
    rw [kind] at own
    obtain ⟨behavior, known, -⟩ := settled.builtins id node.form type (form?_eq_of_node? found) kind
    dsimp only
    rw [Registry.behavior?_without, known]
    constructor
    · rintro ⟨type', out, has⟩
      obtain rfl : type' = type := by simpa using has.unique own
      simp [out]
    · intro out
      exact ⟨type, by simpa using out, own⟩
  | _ =>
    rw [kind] at own
    simp only [Bool.false_eq_true, iff_false, not_exists, not_and]
    intro type _ has
    simpa using has.unique own

theorem Graph.countP_live (distinct : gone.Nodup) (live : ∀ id ∈ gone, (graph.node? id).isSome) :
    graph.live.countP (fun entry => gone.contains entry.1) = gone.length := by
  have same : ((graph.live.map (·.1)).filter gone.contains).Perm gone := by
    refine (List.perm_ext_iff_of_nodup (graph.live_nodup.filter _) distinct).2 fun id => ?_
    rw [List.mem_filter, List.contains_iff_mem, and_iff_right_iff_imp]
    intro mem
    obtain ⟨node, found⟩ := Option.isSome_iff_exists.1 (live id mem)
    exact List.mem_map.2 ⟨(id, node), mem_live.2 found, rfl⟩
  rw [← same.length_eq, ← List.countP_eq_length_filter, List.countP_map]
  rfl

/-- Where some types are not registered a file is read all the same. The nodes of these types and
the wires that touch them are left out and counted, and what is left looks as if they had been
removed. -/
theorem Reached.unregistered {file : Bytes}
    (reached : Reached (· = .empty) (Edit.Leads (· = Registry.builtin)
      fun graph edit => edit.IsGuarded graph ∧ edit.IsCurrent graph) graph)
    (fit : graph.CountsFit Registry.builtin)
    (written : graph.encode Registry.builtin current = .ok file)
    (read : ∃ whole, decode Registry.builtin file = .ok whole) (distinct : gone.Nodup)
    (listed : ∀ id, id ∈ gone ↔ ∃ type, missing type ∧ graph.HasKind id (.builtin type)) :
    ∃ loaded left, decode (Registry.builtin.without missing) file = .ok loaded ∧
      loaded.droppedNodes = gone.length ∧
      loaded.droppedWires = graph.wires.countP (fun (target, wire) =>
        gone.contains wire.source.node || gone.contains target.node) ∧
      (gone.map Edit.remove).foldlM (Edit.apply Registry.builtin) graph = .ok left ∧
      loaded.graph.summary = left.summary := by
  obtain ⟨formed, settled⟩ := reached.settled Registry.builtin_steady fun _ h => h
  have shallow := (formed.decodes_iff fit written).1 read
  have gapped := settled.gapped listed
  obtain ⟨removed, left⟩ := formed.foldlM_remove (fun _ _ _ h => h) distinct fun id mem => by
    obtain ⟨type, -, has⟩ := (listed id).1 mem
    exact ⟨type, has⟩
  obtain ⟨next, reread, mirrored, rewired, signatures, schemas⟩ :=
    formed.rereadBy_eq settled shallow written (Registry.within_without missing _) gapped left
  have decoded := (decodeBy_encode (Registry.within_without missing _) written
    formed.configsReread fit).1 _ reread
  obtain ⟨-, records, recorded, -⟩ := encode_eq_ok written
  refine ⟨_, _, decoded, countP_live distinct fun id mem => ?_, rfl, removed, ?_⟩
  · obtain ⟨type, -, has⟩ := (listed id).1 mem
    obtain ⟨node, found, -⟩ := hasKind_iff.1 has
    exact Option.isSome_of_eq_some found
  · exact rewired.summary_eq (record_withoutNodes _ (records_eq_ok recorded).2) mirrored signatures
      schemas left (decode_wellFormed decoded)

/-- Without branches the event of a script is left, and its wire is not. -/
theorem branching_unregistered : ∃ graph file loaded left,
    Edit.branching.foldlM (Edit.apply Registry.builtin) .empty = .ok graph ∧
      graph.encode Registry.builtin current = .ok file ∧
      decode (Registry.builtin.without (· == "flow/Branch")) file = .ok loaded ∧
      loaded.droppedNodes = 1 ∧ loaded.droppedWires = 1 ∧
      Edit.apply Registry.builtin graph (.remove ⟨1⟩) = .ok left ∧
      loaded.graph.summary = left.summary := by
  have facts : ∃ graph ∈ (Edit.branching.foldlM (Edit.apply Registry.builtin) .empty).toOption,
      (graph.encode Registry.builtin current).toOption.isSome ∧
        graph.CountsFit Registry.builtin ∧ graph.NestedWithin 64 ∧
        graph.live.map (fun entry => (entry.1, entry.2.kind)) =
          [(⟨0⟩, .builtin "event/On"), (⟨1⟩, .builtin "flow/Branch")] ∧
        graph.wires = [(⟨⟨1⟩, 0⟩, ⟨⟨⟨0⟩, 0⟩, [.zero]⟩)] := by decide +kernel
  obtain ⟨graph, built, written, fit, shallow, nodes, wires⟩ := facts
  have built := Accepted.toOption_eq_some_iff.1 built
  have reached := Edit.reached_branching built
  obtain ⟨file, written⟩ := Option.isSome_iff_exists.1 written
  have written := Accepted.toOption_eq_some_iff.1 written
  have formed := (reached.settled Registry.builtin_steady fun _ h => h).1
  have kinds (id : NodeId) (kind : NodeKind) : graph.HasKind id kind ↔ (id, kind) ∈
      [((⟨0⟩ : NodeId), NodeKind.builtin "event/On"), (⟨1⟩, .builtin "flow/Branch")] := by
    rw [← nodes, hasKind_iff, List.mem_map]
    constructor
    · rintro ⟨node, found, rfl⟩
      exact ⟨(id, node), mem_live.2 found, rfl⟩
    · rintro ⟨entry, mem, same⟩
      obtain ⟨rfl, rfl⟩ := Prod.mk.inj same
      exact ⟨entry.2, mem_live.1 mem, rfl⟩
  have listed (id : NodeId) : id ∈ [(⟨1⟩ : NodeId)] ↔
      ∃ type, (type == "flow/Branch") = true ∧ graph.HasKind id (.builtin type) := by
    simp [kinds]
  obtain ⟨loaded, left, decoded, nodes, dropped, removed, same⟩ := reached.unregistered fit written
    ((formed.decodes_iff fit written).2 shallow) (List.nodup_singleton _) listed
  rw [wires] at dropped
  refine ⟨graph, file, loaded, left, built, written, decoded, nodes, dropped, ?_, same⟩
  obtain ⟨next, first, last⟩ := Accepted.bind_iff.1 removed
  exact first.trans (congrArg _ (Except.ok.inj last))

end NodeScript
