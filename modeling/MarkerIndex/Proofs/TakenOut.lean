import MarkerIndex.Proofs.Layout
import MarkerIndex.Proofs.ModuleFiles
/-!
A module that is written in place, taken out of the items around it. What the items say of their
modules, which modules they declare and which functions they mark is what they said, declared and
marked before, less one stretch: that of the items inside the module.
-/

namespace MarkerIndex

open PendingModule (Site)

namespace Item

/-- Of the items at `site` those in `left` remain when the module `name`, which is written in place
at `home` and holds `nested`, is declared there without a body instead. -/
inductive TakenOut : Site → List Item → Site → String → List Item → List Item → Prop
  | here {site : Site} {before after nested : List Item} {name : String}
      {attributes attributes' : List Attribute} :
      attributes'.findSome? Attribute.pathValue? = none →
      TakenOut site (before ++ .submodule name attributes (some nested) :: after) site name nested
        (before ++ .submodule name attributes' none :: after)
  | inside {site home : Site} {before after items nested left : List Item} {outer name : String}
      {attributes : List Attribute} :
      TakenOut (site.inside outer attributes) items home name nested left →
      TakenOut site (before ++ .submodule outer attributes (some items) :: after) home name nested
        (before ++ .submodule outer attributes (some left) :: after)

variable {site home : Site} {items nested left : List Item} {name : String}

namespace TakenOut

/-- The files of the module, and of those inside it, lie where their names say. -/
theorem follows (h : TakenOut site items home name nested left) {names : List String}
    (hsite : site.Follows names) (hitems : FollowNames items) :
    Text.unraw name = name ∧ NamesFiles name ∧ FollowNames nested ∧
    ∃ above, home.Follows above := by
  induction h generalizing names with
  | here _ =>
      obtain ⟨hplain, hname, -, hnested⟩ := hitems.of_submodule List.mem_append_cons_self
      exact ⟨hplain, hname, hnested _ rfl, names, hsite⟩
  | inside _ ih =>
      obtain ⟨hplain, hname, hfound, hnested⟩ := hitems.of_submodule List.mem_append_cons_self
      exact ih (hsite.inside hname hplain hfound) (hnested _ rfl)

end TakenOut

end Item

namespace PendingModule

theorem declaredAll_append (site : Site) (items others : List Item) :
    declaredAll site (items ++ others) = declaredAll site items ++ declaredAll site others := by
  induction items with
  | nil => simp [declaredAll]
  | cons item items ih => simp [declaredAll, ih]

end PendingModule

theorem Declaration.ofItems_eq_flatMap (t : SymbolTable) (registration : ItemPath) (place : Place)
    (items : List Item) :
    ofItems t registration place items = items.flatMap (ofItem t registration place) := by
  induction items with
  | nil => rfl
  | cons item items ih => rw [ofItems, ih, List.flatMap_cons]

theorem Declaration.ofItems_append (t : SymbolTable) (registration : ItemPath) (place : Place)
    (items others : List Item) : ofItems t registration place (items ++ others) =
      ofItems t registration place items ++ ofItems t registration place others := by
  simp only [ofItems_eq_flatMap, List.flatMap_append]

namespace Item

variable {site home : Site} {items nested left : List Item} {name : String}

/-- Something that is said of items one after the other: of a module that is written in place
something at its own place, and behind that what is said of the items inside it. -/
structure Itemwise {α : Type} (contents : Site → List Item → List α) : Prop where
  append : ∀ site items others, contents site (items ++ others) = contents site items ++
    contents site others
  submodule : ∀ (site : Site) (name : String) (attributes : List Attribute),
  Text.unraw name = name →
    ∃ head, ∀ content, contents site [.submodule name attributes (some content)] =
      head ++ contents (site.inside name attributes) content

theorem Itemwise.append_cons {α : Type} {contents : Site → List Item → List α}
    (hcontents : Itemwise contents)
    (site : Site) (before : List Item) (item : Item) (after : List Item) :
    contents site (before ++ item :: after) = contents site before ++ contents site [item] ++
      contents site after := by
  rw [← hcontents.append, ← hcontents.append, List.append_assoc, List.singleton_append]

/-- What is said of the items changes in one stretch: what the declaration of the module says stands
there in place of what the module said. -/
theorem TakenOut.exists_stretch {α : Type} {contents : Site → List Item → List α}
    (hcontents : Itemwise contents)
    (h : TakenOut site items home name nested left) (hplain : nameModulesPlainly items = true) :
    ∃ before after attributes attributes', Text.unraw name = name ∧
      (findModulesByName items = true → attributes.findSome? Attribute.pathValue? = none) ∧
      attributes'.findSome? Attribute.pathValue? = none ∧
      contents site items = before ++
        contents home [.submodule name attributes (some nested)] ++ after ∧
      contents site left = before ++ contents home [.submodule name attributes' none] ++ after := by
  induction h with
  | @here site before after nested name attributes attributes' hfound' =>
      have hmodule := nameModulesPlainly_iff.mp hplain _ List.mem_append_cons_self
      refine ⟨contents site before, contents site after, attributes, attributes',
        (namesModulesPlainly_submodule_iff.mp hmodule).1, fun hfound => ?_, hfound',
        hcontents.append_cons _ _ _ _, hcontents.append_cons _ _ _ _⟩
      have hmodule := findModulesByName_iff.mp hfound _ List.mem_append_cons_self
      exact (findsModulesByName_submodule_iff.mp hmodule).1
  | @inside site home before after items nested left outer name attributes _ ih =>
      have hmodule := nameModulesPlainly_iff.mp hplain _ List.mem_append_cons_self
      obtain ⟨houter, hcontent⟩ := namesModulesPlainly_submodule_iff.mp hmodule
      obtain ⟨front, back, attrs, attrs', hname, hfound, hfound', hitems, hleft⟩ :=
        ih (hcontent items rfl)
      obtain ⟨head, hhead⟩ := hcontents.submodule site outer attributes houter
      -- the block around says the same before and behind, whatever it holds
      refine ⟨contents site before ++ head ++ front, back ++ contents site after, attrs,
        attrs', hname, fun hall => ?_, hfound', ?_, ?_⟩
      · have hmodule := findModulesByName_iff.mp hall _ List.mem_append_cons_self
        exact hfound ((findsModulesByName_submodule_iff.mp hmodule).2 items rfl)
      · rw [hcontents.append_cons, hhead, hitems]
        simp only [List.append_assoc]
      · rw [hcontents.append_cons, hhead, hleft]
        simp only [List.append_assoc]

theorem itemwise_declaredAll : Itemwise PendingModule.declaredAll where
  append := PendingModule.declaredAll_append
  submodule site name attributes _ := ⟨[], fun content => by
    simp [PendingModule.declaredAll, PendingModule.declared, Site.inside]⟩

/-- The module is declared without a body, in place of what was declared inside it. -/
theorem TakenOut.declared (h : TakenOut site items home name nested left)
    (hitems : FollowNames items) :
    ∃ before after,
      PendingModule.declaredAll site items =
        before ++ PendingModule.declaredAll (home.inside name []) nested ++ after ∧
      PendingModule.declaredAll site left = before ++
        ⟨home.module.join name, PendingModule.candidatesOf home name none⟩ :: after := by
  obtain ⟨before, after, _, _, hname, hfound, hfound', hwhole, hleft⟩ :=
    h.exists_stretch itemwise_declaredAll hitems.plain
  refine ⟨before, after, ?_, ?_⟩
  · rw [hwhole]
    simp [PendingModule.declaredAll, PendingModule.declared, Site.inside, hfound hitems.found]
  · rw [hleft]
    simp [PendingModule.declaredAll, PendingModule.declared, hname, hfound']

theorem itemwise_facts : Itemwise fun site items => Fact.ofItems site.module items where
  append site items others := by simp [Fact.ofItems_eq_flatMap]
  submodule site name attributes hname :=
    ⟨[(site.module, .item name), (site.module.join name, .module)], fun content => by
      simp [Fact.ofItems, Fact.ofItem, Site.inside, hname]⟩

/-- What the items say of the module is a stretch of what they say. -/
theorem TakenOut.facts (h : TakenOut site items home name nested left)
    (hplain : nameModulesPlainly items = true) :
    ∃ before after,
      Fact.ofItems site.module items = before ++ ((home.module.join name, .module) ::
        Fact.ofItems (home.module.join name) nested) ++ after ∧
      Fact.ofItems site.module left = before ++ after := by
  obtain ⟨before, after, _, _, -, -, -, hwhole, hleft⟩ :=
    h.exists_stretch itemwise_facts hplain
  refine ⟨before ++ [(home.module, .item name)], after, ?_, ?_⟩
  · rw [hwhole]
    simp [Fact.ofItems, Fact.ofItem]
  · rw [hleft]
    simp [Fact.ofItems, Fact.ofItem]

theorem itemwise_functions (t : SymbolTable) (registration : ItemPath) (file : FilePath) :
    Itemwise fun site items =>
      Declaration.ofItems t registration ⟨file, site.module, none⟩ items where
  append site items others := Declaration.ofItems_append t registration _ items others
  submodule site name attributes hname := ⟨[], fun content => by
    simp [Declaration.ofItems, Declaration.ofItem, Site.inside, hname]⟩

/-- The functions inside the module are a stretch of all functions. -/
theorem TakenOut.functions (h : TakenOut site items home name nested left)
    (hplain : nameModulesPlainly items = true) (t : SymbolTable) (registration : ItemPath)
    (file : FilePath) :
    ∃ before after,
      Declaration.ofItems t registration ⟨file, site.module, none⟩ items =
        before ++ Declaration.ofItems t registration ⟨file, home.module.join name, none⟩ nested ++
          after ∧
      Declaration.ofItems t registration ⟨file, site.module, none⟩ left = before ++ after := by
  obtain ⟨before, after, _, _, -, -, -, hwhole, hleft⟩ :=
    h.exists_stretch (itemwise_functions t registration file) hplain
  refine ⟨before, after, ?_, ?_⟩
  · rw [hwhole]
    simp [Declaration.ofItems, Declaration.ofItem]
  · rw [hleft]
    simp [Declaration.ofItems, Declaration.ofItem]

/-- No call at the top of the items is inside a module. -/
theorem TakenOut.calls (h : TakenOut site items home name nested left) :
    (unplacedAll left).filterMap Directive.call? =
      (unplacedAll items).filterMap Directive.call? := by
  cases h <;> simp [unplacedAll_eq_map, unplaced, List.filterMap_cons, Directive.call?]

end Item

namespace Fact

/-- Whatever module something is said of is said to be there. -/
def Told (facts : List (ItemPath × Fact)) : Prop :=
  ∀ fact ∈ facts, (fact.1, module) ∈ facts

theorem Told.append {facts others : List (ItemPath × Fact)} (h : Told facts)
    (hothers : Told others) :
    Told (facts ++ others) := by
  intro fact member
  rcases List.mem_append.mp member with member | member
  · exact List.mem_append_left _ (h fact member)
  · exact List.mem_append_right _ (hothers fact member)

theorem Stated.told {m : ItemPath} {items : List Item} {fact : ItemPath × Fact}
    (h : Stated m items fact) :
    fact.1 = m ∨ Stated m items (fact.1, module) := by
  induction h with
  | own => exact Or.inl rfl
  | opened hi => exact Or.inr (.opened hi)
  | inside hi _ ih =>
      rcases ih with hsame | htold
      · exact Or.inr (hsame ▸ .opened hi)
      · exact Or.inr (.inside hi htold)

theorem told_module (m : ItemPath) (items : List Item) : Told ((m, module) :: ofItems m items) := by
  intro fact member
  rcases List.mem_cons.mp member with rfl | member
  · exact List.mem_cons_self
  · rcases (mem_ofItems_iff.mp member).told with hsame | htold
    · rw [hsame]
      exact List.mem_cons_self
    · exact List.mem_cons_of_mem _ (mem_ofItems_iff.mpr htold)

theorem told_ofFiles (files : List SourceFile) : Told (files.flatMap ofFile) := by
  induction files with
  | nil => simp [Told]
  | cons f files ih =>
      rw [List.flatMap_cons]
      exact (told_module f.module f.items).append ih

/-- Where every module is there once, a stretch of facts that tells of its modules all there is may
stand anywhere among the others: of each module the same is said in the same order. -/
theorem filter_moved {before after before' after' moved : List (ItemPath × Fact)}
    (hrest : before' ++ after' = before ++ after) (hmoved : Told moved)
    (hothers : Told (before ++ after))
    (honce : ((before ++ moved ++ after).filter (·.2 = module)).Nodup) (m : ItemPath) :
    (before' ++ moved ++ after').filter (·.1 = m) =
      (before ++ moved ++ after).filter (·.1 = m) := by
  by_cases hm : ∃ fact ∈ moved, fact.1 = m
  · -- the others say nothing of a module that the stretch tells of
    obtain ⟨fact, hfact, rfl⟩ := hm
    have hperm : (before ++ moved ++ after).Perm (moved ++ (before ++ after)) := by
      simpa using List.perm_append_comm.append_right after
    rw [(hperm.filter _).nodup_iff, List.filter_append, List.nodup_append] at honce
    have hothers : ∀ facts ⊆ before ++ after, facts.filter (·.1 = fact.1) = [] := by
      intro facts hsub
      refine List.filter_eq_nil_iff.mpr fun other hother => ?_
      simp only [decide_eq_true_eq]
      intro hsame
      have hagain := hothers other (hsub hother)
      rw [hsame] at hagain
      exact honce.2.2 (fact.1, module) (List.mem_filter.mpr ⟨hmoved fact hfact, by simp⟩) _
        (List.mem_filter.mpr ⟨hagain, by simp⟩) rfl
    simp only [List.filter_append, hothers before (List.subset_append_left _ _),
      hothers after (List.subset_append_right _ _),
      hothers before' (hrest ▸ List.subset_append_left _ _),
      hothers after' (hrest ▸ List.subset_append_right _ _)]
  · have hnone : moved.filter (·.1 = m) = [] :=
      List.filter_eq_nil_iff.mpr fun fact hfact => by simpa using fun h => hm ⟨fact, hfact, h⟩
    have hfilter := congrArg (List.filter (·.1 = m)) hrest
    simp only [List.filter_append, hnone, List.append_nil] at hfilter ⊢
    exact hfilter

end Fact

end MarkerIndex
