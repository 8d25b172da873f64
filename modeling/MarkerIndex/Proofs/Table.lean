import MarkerIndex.Crate.Symbols
import MarkerIndex.Proofs.ItemPath
/-!
What the items of a file state, and what the lookups in a symbol table say of its facts. Later
modules use these and open neither the walk over the items nor the lookups themselves.
-/

namespace MarkerIndex

/-- The items inside a module that is written in place are smaller than those around it. -/
theorem Item.sizeOf_lt_of_submodule {items nested : List Item} {name : String}
    {attributes : List Attribute}
    (h : .submodule name attributes (some nested) ∈ items) : sizeOf nested < sizeOf items := by
  have hlt := List.sizeOf_lt_of_mem h
  simp only [submodule.sizeOf_spec, Option.some.sizeOf_spec] at hlt
  omega

namespace Fact

/-- What items say is what each of them says, in their order. -/
theorem ofItems_eq_flatMap (m : ItemPath) (items : List Item) :
    ofItems m items = items.flatMap (ofItem m) := by
  induction items with
  | nil => rfl
  | cons item items ih => rw [ofItems, ih, List.flatMap_cons]

theorem mem_ofItems {m : ItemPath} {items : List Item} {fact : ItemPath × Fact} :
    fact ∈ ofItems m items ↔ ∃ i ∈ items, fact ∈ ofItem m i := by
  rw [ofItems_eq_flatMap, List.mem_flatMap]

/-- What an item says of the module that it stands in. -/
def own : Item → List Fact
  | .use leadingColon tree => ofUseTree leadingColon [] tree
  | .externalCrate name rename => [ofExternalCrate name rename]
  | .submodule name _ _ => [item name]
  | .function f => ofName f.name
  | .contract name _ => ofName name
  | .declaration name => ofName name
  | .implementation _ _ => []
  | .invocation _ _ => []
  | .other => []

/-- The items of a module state a fact: one of that module, that there is a module written in place
in it, or what the items inside of that state. -/
inductive Stated : ItemPath → List Item → ItemPath × Fact → Prop
  | own {m : ItemPath} {items : List Item} {i : Item} {fact : Fact} :
      i ∈ items → fact ∈ own i → Stated m items (m, fact)
  | opened {m : ItemPath} {items nested : List Item} {name : String} {attributes : List Attribute} :
      .submodule name attributes (some nested) ∈ items → Stated m items (m.join name, module)
  | inside {m : ItemPath} {items nested : List Item} {name : String} {attributes : List Attribute}
      {fact : ItemPath × Fact} :
      .submodule name attributes (some nested) ∈ items → Stated (m.join name) nested fact →
      Stated m items fact

theorem mem_ofItem_iff {m : ItemPath} {i : Item} {fact : ItemPath × Fact} :
    fact ∈ ofItem m i ↔ (∃ said ∈ own i, fact = (m, said)) ∨
      ∃ name attributes nested, i = .submodule name attributes (some nested) ∧
        (fact = (m.join name, module) ∨ fact ∈ ofItems (m.join name) nested) := by
  cases i with
  | submodule name attributes content =>
      cases content with
      | none => simp [own, ofItem]
      | some nested =>
          simp only [own, ofItem, List.mem_cons, List.not_mem_nil, or_false, exists_eq_left]
          refine or_congr_right ⟨fun h => ⟨name, attributes, nested, rfl, h⟩, ?_⟩
          rintro ⟨_, _, _, ⟨⟩, h⟩
          exact h
  | _ => simp [own, ofItem, eq_comm]

theorem stated_of_mem_ofItems {m : ItemPath} {items : List Item} {fact : ItemPath × Fact}
    (h : fact ∈ ofItems m items) : Stated m items fact := by
  obtain ⟨i, hi, h⟩ := mem_ofItems.mp h
  rcases mem_ofItem_iff.mp h with
      ⟨said, hsaid, rfl⟩ | ⟨name, attributes, nested, rfl, rfl | hnested⟩
  · exact .own hi hsaid
  · exact .opened hi
  · exact .inside hi (stated_of_mem_ofItems hnested)
termination_by sizeOf items
decreasing_by exact Item.sizeOf_lt_of_submodule hi

/-- The table's walk finds what the items state, and nothing else. -/
theorem mem_ofItems_iff {m : ItemPath} {items : List Item} {fact : ItemPath × Fact} :
    fact ∈ ofItems m items ↔ Stated m items fact := by
  constructor
  · exact stated_of_mem_ofItems
  · intro h
    induction h with
    | own hi hsaid => exact mem_ofItems.mpr ⟨_, hi, mem_ofItem_iff.mpr (Or.inl ⟨_, hsaid, rfl⟩)⟩
    | opened hi => exact mem_ofItems.mpr ⟨_, hi, by simp [ofItem]⟩
    | inside hi _ ih => exact mem_ofItems.mpr ⟨_, hi, by simp [ofItem, ih]⟩

end Fact

namespace SymbolTable

variable {t : SymbolTable} {m : ItemPath} {name : String} {target : ImportTarget}

theorem isModule_iff : t.isModule m = true ↔ ∃ fact, (m, fact) ∈ t.facts := by
  simp only [isModule, List.any_eq_true, decide_eq_true_eq]
  constructor
  · rintro ⟨⟨_, fact⟩, member, rfl⟩
    exact ⟨fact, member⟩
  · rintro ⟨fact, member⟩
    exact ⟨(m, fact), member, rfl⟩

theorem isModule_of_mem {fact : Fact} (h : (m, fact) ∈ t.facts) : t.isModule m = true :=
  isModule_iff.mpr ⟨fact, h⟩

theorem isModule_of_hasItem (h : t.hasItem m name = true) : t.isModule m = true :=
  isModule_of_mem (List.contains_iff_mem.mp h)

theorem mem_factsOf {fact : Fact} : fact ∈ t.factsOf m ↔ (m, fact) ∈ t.facts := by
  simp [factsOf]

theorem mem_facts_of_import? (h : t.import? m name = some target) :
    (m, .binding name target) ∈ t.facts := by
  obtain ⟨fact, member, hfact⟩ := List.exists_of_findSome?_eq_some h
  cases fact with
  | binding bound found =>
      obtain ⟨rfl, rfl⟩ : bound = name ∧ found = target := by simpa using hfact
      exact mem_factsOf.mp (List.mem_reverse.mp member)
  | _ => simp at hfact

theorem isModule_of_import? (h : t.import? m name = some target) : t.isModule m = true :=
  isModule_of_mem (mem_facts_of_import? h)

theorem mem_globs : target ∈ t.globs m ↔ (m, .glob target) ∈ t.facts := by
  rw [← mem_factsOf, globs, List.mem_filterMap]
  constructor
  · rintro ⟨fact, member, hfact⟩
    cases fact with
    | glob found =>
        obtain rfl : found = target := by simpa using hfact
        exact member
    | _ => simp at hfact
  · intro member
    exact ⟨_, member, rfl⟩

theorem declares_iff :
    t.declares m name = true ↔ t.hasItem m name = true ∨ t.isModule (m.join name) = true := by
  simp [declares]

theorem contains_of_isModule (h : t.isModule m = true) : t.contains m = true := by
  simp [contains, h]

/-- What a table knows is known to every table with more facts. -/
theorem contains_mono {t' : SymbolTable} (hsub : t.facts ⊆ t'.facts) {p : ItemPath}
    (h : t.contains p = true) : t'.contains p = true := by
  rw [contains, Bool.or_eq_true] at h ⊢
  rcases h with hmodule | hitem
  · obtain ⟨fact, member⟩ := isModule_iff.mp hmodule
    exact Or.inl (isModule_of_mem (hsub member))
  · refine Or.inr ?_
    cases hparent : p.parent? with
    | none => simp [hparent] at hitem
    | some above =>
        rw [hparent] at hitem
        exact List.contains_iff_mem.mpr (hsub (List.contains_iff_mem.mp hitem))

/-- A path below another one is contained just when its last name is declared. -/
theorem contains_join (hm : m.segments ≠ []) : t.contains (m.join name) = t.declares m name := by
  simp [contains, declares, ItemPath.parent?_join hm, ItemPath.simpleName_join, Bool.or_comm]

/-- A path that the table knows, though it is no module, is an item of the module above. -/
theorem hasItem_of_contains (hknown : t.contains (m.join name) = true)
    (hfree : t.isModule (m.join name) = false) : t.hasItem m name = true := by
  by_cases hm : m.segments = []
  · rw [contains, hfree] at hknown
    simp [ItemPath.parent?, ItemPath.join, hm] at hknown
  · rw [contains_join hm, declares_iff, hfree] at hknown
    simpa using hknown

end SymbolTable

/-- The table that the paths of a crate are looked up in, with items of other crates registered. -/
def Corpus.table (c : Corpus) (external : List ItemPath) : SymbolTable :=
  (SymbolTable.ofCorpus c).withExternal external

theorem Corpus.withExternal_table (c : Corpus) (external items : List ItemPath) :
    (c.table external).withExternal items = c.table (external ++ items) := by
  simp [table, SymbolTable.withExternal]

end MarkerIndex
