import NodeScript.Proofs.Catalog.Ports
import NodeScript.Proofs.Graph.Effect

/-!
No struct is made of itself. `Schema.Refers` relates the name of a struct to the names that its
fields mention, whether there are structs of these names or not: a name that means nothing now may
be given to a struct later. Main statements: the search before a declaration decides the paths of
this relation (`Declared.structLeadsTo_iff`), and every accepted edit keeps it without loops
(`Edit.unlooped`).
-/

set_option autoImplicit false
set_option relaxedAutoImplicit false

namespace NodeScript

open Relation

theorem DataType.mentions_iff {type : DataType} {name : String} :
    type.mentions name = true ↔ ∃ schema, type.schema? = some schema ∧ schema.name = name := by
  simp [mentions, Option.any_eq_true]

namespace Schema

def Mentions (schema : Schema) (name : String) : Prop :=
  ∃ field ∈ schema.fields, field.type.mentions name = true

/-- A known struct of the first name mentions the second. -/
def Refers (known : List Schema) (name other : String) : Prop :=
  ∃ schema ∈ known, schema.name = name ∧ schema.Mentions other

/-- No known struct leads back to itself. -/
def Unlooped (known : List Schema) : Prop := ∀ name, ¬TransGen (Refers known) name name

variable {known known' : List Schema}

theorem unlooped_nil : Unlooped [] := by
  intro name loop
  obtain ⟨_, ⟨schema, member, -⟩, -⟩ := TransGen.head'_iff.1 loop
  simp at member

theorem Unlooped.of_subset (unlooped : Unlooped known)
    (subset : ∀ schema ∈ known', schema ∈ known) :
    Unlooped known' := by
  intro name loop
  refine unlooped name (TransGen.mono ?_ _ _ loop)
  rintro _ _ ⟨schema, member, refers⟩
  exact ⟨schema, subset schema member, refers⟩

theorem Unlooped.with_one (unlooped : Unlooped known) {schema : Schema}
    (others : ∀ other ∈ known', other ∈ known ∨ other = schema)
    (unreached : ∀ name, schema.Mentions name → ¬ReflTransGen (Refers known) name schema.name) :
    Unlooped known' := by
  intro name loop
  have pairs (name other : String) (refers : Refers known' name other) :
      Refers known name other ∨ (name = schema.name ∧ schema.Mentions other) := by
    obtain ⟨holder, member, same, mentions⟩ := refers
    rcases others holder member with member | rfl
    · exact .inl ⟨holder, member, same, mentions⟩
    · exact .inr ⟨same.symm, mentions⟩
  -- A loop through the new struct goes on from one that it mentions and comes back to its name.
  rcases transGen_of_added pairs loop with loop | ⟨_, other, ⟨rfl, upTo⟩, mentions, onwards⟩
  · exact unlooped name loop
  · exact unreached other mentions (onwards.trans upTo)

end Schema

open Schema

namespace Graph

variable {graph next : Graph}

theorem Declared.mem_mentionedBy_iff (declared : graph.Declared) {name other : String} :
    other ∈ graph.mentionedBy name ↔ Refers graph.schemas name other := by
  have ofEntry {entry : StructEntry} :
      (other ∈ entry.schema.fields.filterMap fun field => field.type.schema?.map (·.name)) ↔
        entry.schema.Mentions other := by
    simp only [List.mem_filterMap, Option.map_eq_some_iff, Mentions, DataType.mentions_iff]
  unfold mentionedBy
  cases found : graph.structNamed? name with
  | none =>
    simp only [List.not_mem_nil, false_iff]
    rintro ⟨schema, member, rfl, -⟩
    obtain ⟨entry, he, rfl⟩ := List.mem_map.1 member
    rw [declared.structNamed?_iff.2 ⟨he, rfl⟩] at found
    simp at found
  | some entry =>
    obtain ⟨he, rfl⟩ := declared.structNamed?_iff.1 found
    refine ofEntry.trans ⟨fun mentions => ⟨_, List.mem_map_of_mem he, rfl, mentions⟩, ?_⟩
    rintro ⟨schema, member, same, mentions⟩
    obtain ⟨entry', he', rfl⟩ := List.mem_map.1 member
    rwa [List.inj_on_of_nodup_map declared.structNames he' he same] at mentions

/-- The search finds what the fields of structs lead to. -/
theorem Declared.structLeadsTo_iff (declared : graph.Declared) {name : String}
    {targets : List String} : graph.structLeadsTo name targets = true ↔
      ∃ target ∈ targets, ReflTransGen (Refers graph.schemas) name target := by
  have nodup : (graph.schemas.map (·.name)).Nodup := by
    rw [schemas, List.map_map]
    exact declared.structNames
  have step (a b : String) :
      Search.Step graph.mentionedBy (· ∈ graph.schemas.map (·.name)) a b ↔
        Refers graph.schemas a b := by
    rw [Search.Step, declared.mem_mentionedBy_iff, and_iff_right_iff_imp]
    rintro ⟨schema, member, rfl, -⟩
    exact List.mem_map_of_mem member
  have same : Search.Step graph.mentionedBy (· ∈ graph.schemas.map (·.name)) =
      Refers graph.schemas := by
    funext a b
    exact propext (step a b)
  rw [structLeadsTo, leadsTo_iff _ _ nodup, Search.Finds, same]
  simp

theorem Declared.isNamed_of_checked (declared : graph.Declared) {types : List DataType}
    {declaring : List String} (checked : graph.checkMentions types declaring = .ok ())
    {type : DataType} (ht : type ∈ types) : type.IsNamed (graph.schemas.map (·.name)) := by
  intro held hs
  obtain ⟨entry, found⟩ :=
    Option.isSome_iff_exists.1 (checkMentions_eq_ok checked ht hs).1
  obtain ⟨he, same⟩ := declared.structNamed?_iff.1 found
  rw [← same]
  exact List.mem_map_of_mem (List.mem_map_of_mem he)

theorem Declared.unreached_of_checked (declared : graph.Declared) {schema : Schema}
    {declaring : List String}
    (checked : graph.checkMentions (schema.fields.map Field.type) declaring = .ok ())
    {target : String} (ht : target ∈ declaring) {name : String} (mentions : schema.Mentions name) :
    ¬ReflTransGen (Refers graph.schemas) name target := by
  intro path
  obtain ⟨field, hf, mentions⟩ := mentions
  obtain ⟨held, hs, rfl⟩ := DataType.mentions_iff.1 mentions
  have apart := (checkMentions_eq_ok checked (List.mem_map_of_mem hf) hs).2
  rw [declared.structLeadsTo_iff.2 ⟨target, ht, path⟩] at apart
  exact absurd apart (by simp)

theorem unlooped_withStruct {schema : Schema} (unlooped : Unlooped graph.schemas)
    (unreached : ∀ name, schema.Mentions name →
      ¬ReflTransGen (Refers graph.schemas) name schema.name) :
    Unlooped (graph.withStruct schema).schemas := by
  refine unlooped.with_one (fun other member => ?_) unreached
  obtain ⟨entry, he, rfl⟩ := List.mem_map.1 member
  rcases mem_withStruct.1 he with he | rfl
  · exact .inl (List.mem_map_of_mem he)
  · exact .inr rfl

theorem unlooped_redeclareStruct {previous : StructId} {schema : Schema}
    (unlooped : Unlooped graph.schemas)
    (unreached : ∀ name, schema.Mentions name →
      ¬ReflTransGen (Refers graph.schemas) name schema.name) :
    Unlooped (graph.redeclareStruct previous schema).schemas := by
  refine unlooped.with_one (fun other member => ?_) unreached
  obtain ⟨entry, he, rfl⟩ := List.mem_map.1 member
  rcases mem_redeclareStruct he with rfl | ⟨he, -⟩
  · exact .inr rfl
  · exact .inl (List.mem_map_of_mem he)

end Graph

open NodeScript.Graph

/-- An accepted edit makes no struct lead to itself. -/
theorem Edit.unlooped {registry : Registry} {graph next : Graph} {edit : Edit}
    (declared : graph.Declared) (unlooped : Unlooped graph.schemas)
    (accepted : edit.apply registry graph = .ok next) : Unlooped next.schemas := by
  cases Edit.outcome accepted with
  | upkeep same =>
    rw [same.schemas]
    exact unlooped
  | builtin _ _ => exact unlooped
  | withFunction _ _ same =>
    rw [same.schemas]
    exact unlooped
  | withStruct _ checked same =>
    rw [same.schemas]
    exact unlooped_withStruct unlooped fun _ =>
      declared.unreached_of_checked checked List.mem_cons_self
  | redeclareFunction _ _ same =>
    rw [same.schemas]
    exact unlooped
  | @redeclareStruct _ schema _ last _ _ checked same =>
    have changed : Unlooped last.schemas := by
      rw [same.schemas]
      refine unlooped_redeclareStruct unlooped fun _ => ?_
      exact declared.unreached_of_checked checked List.mem_cons_self
    exact changed.of_subset fun held member => ((inOrder_perm last.structs).map _).mem_iff.1 member
  | withoutFunction same =>
    rw [same.schemas]
    exact unlooped
  | withoutStruct _ same =>
    rw [same.schemas]
    refine unlooped.of_subset fun held member => ?_
    obtain ⟨entry, he, rfl⟩ := List.mem_map.1 member
    exact List.mem_map_of_mem (mem_withoutStruct.1 he).1

end NodeScript
