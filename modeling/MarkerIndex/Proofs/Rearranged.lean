import MarkerIndex.Proofs.AddedScope
import MarkerIndex.Proofs.MarkerWords
import MarkerIndex.Proofs.Scan
import MarkerIndex.Proofs.TakenOut
/-!
Items in another order. Functions are met in the order in which they stand, with those of types,
traits and modules that are written in place, and glob imports are tried in the order in which they
stand. The order of all other items of a list says nothing: modules and items are looked up by name,
and so are imports, where no two of them bind one name in one module.
-/

namespace MarkerIndex

/-- A map to lists need not be applied where it gives the empty list. -/
theorem flatMap_eq_filter {α β : Type} {g : α → List β} {keep : α → Bool} {list : List α}
    (h : ∀ a, keep a = false → g a = []) : list.flatMap g = (list.filter keep).flatMap g := by
  induction list with
  | nil => rfl
  | cons a list ih =>
      cases hkeep : keep a with
      | true => rw [List.filter_cons_of_pos hkeep, List.flatMap_cons, List.flatMap_cons, ih]
      | false =>
          rw [List.filter_cons_of_neg (by simp [hkeep]), List.flatMap_cons, h a hkeep,
            List.nil_append, ih]

/-- Where at most one element has anything to give, the order of elements does not count. -/
theorem flatMap_eq_of_perm {α β : Type} {g : α → List β} {list others : List α}
    (hperm : list.Perm others) (h : list.Pairwise fun a b => g a = [] ∨ g b = []) :
    list.flatMap g = others.flatMap g := by
  induction hperm with
  | nil => rfl
  | cons a _ ih => rw [List.flatMap_cons, List.flatMap_cons, ih (List.pairwise_cons.mp h).2]
  | swap a b list =>
      rcases (List.pairwise_cons.mp h).1 a List.mem_cons_self with hb | ha
      · simp [hb]
      · simp [ha]
  | trans hfirst _ ih ih' =>
      rw [ih h, ih' ((hfirst.pairwise_iff fun hab => hab.symm).mp h)]

mutual

/-- Somewhere the import takes over all names of a module. -/
def UseTree.hasGlob : UseTree → Bool
  | .path _ tree => tree.hasGlob
  | .name _ => false
  | .rename _ _ => false
  | .glob => true
  | .group trees => UseTree.anyHasGlob trees

def UseTree.anyHasGlob : List UseTree → Bool
  | [] => false
  | tree :: trees => tree.hasGlob || UseTree.anyHasGlob trees

end

namespace Item

/-- Functions, implementations, traits and modules that are written in place. -/
def holdsFunctions : Item → Bool
  | .function _ => true
  | .implementation _ _ => true
  | .contract _ _ => true
  | .submodule _ _ (some _) => true
  | _ => false

def importsGlob : Item → Bool
  | .use _ tree => tree.hasGlob
  | _ => false

/-- Both lists have their functions in one order, and their glob imports in one order. -/
structure SameOrder (items others : List Item) : Prop where
  functions : items.filter holdsFunctions = others.filter holdsFunctions
  globs : items.filter importsGlob = others.filter importsGlob

/-- The same items laid out in another way, and arranged in another way in their list and in the
modules that are written in place there. -/
inductive Rearranged : List Item → List Item → Prop
  | laid {items others : List Item} :
      unplacedAll items = unplacedAll others → Rearranged items others
  | arranged {items others : List Item} : items.Perm others → SameOrder items others →
      Rearranged items others
  | inside {before after nested others : List Item} {name : String} {attributes : List Attribute} :
      Rearranged nested others →
      Rearranged (before ++ .submodule name attributes (some nested) :: after)
        (before ++ .submodule name attributes (some others) :: after)
  | trans {items middle others : List Item} : Rearranged items middle → Rearranged middle others →
      Rearranged items others

end Item

namespace Fact

/-- What items say is said of their module and of modules below. -/
theorem Stated.liesBelow {m : ItemPath} {items : List Item} {fact : ItemPath × Fact}
    (h : Stated m items fact) :
    ∃ names, fact.1 = m.extend names := by
  induction h with
  | own => exact ⟨[], by simp⟩
  | @opened m _ _ name => exact ⟨[name], rfl⟩
  | @inside m _ _ name _ _ _ _ ih =>
      obtain ⟨names, hnames⟩ := ih
      exact ⟨name :: names, by rw [hnames, ItemPath.extend_cons]⟩

/-- The target of a glob import of the module. -/
def globOf? (m : ItemPath) : ItemPath × Fact → Option ImportTarget
  | (k, .glob target) => if k = m then some target else none
  | _ => none

/-- The target that the name is bound to in the module. -/
def boundIn? (m : ItemPath) (name : String) : ItemPath × Fact → Option ImportTarget
  | (k, .binding bound target) => if k = m ∧ bound = name then some target else none
  | _ => none

mutual

theorem not_glob_of_hasGlob {leadingColon : Bool} {before : List String} {target : ImportTarget} :
    (tree : UseTree) → tree.hasGlob = false → glob target ∉ ofUseTree leadingColon before tree
  | .path _ tree, h => by
      rw [ofUseTree]
      exact not_glob_of_hasGlob tree (by simpa only [UseTree.hasGlob] using h)
  | .name name, _ => by
      simp only [ofUseTree]
      repeat' split
      all_goals simp
  | .rename _ as_, _ => by
      simp only [ofUseTree]
      split <;> simp
  | .glob, h => by simp [UseTree.hasGlob] at h
  | .group trees, h => by
      rw [ofUseTree]
      exact not_glob_of_anyHasGlob trees (by simpa only [UseTree.hasGlob] using h)

theorem not_glob_of_anyHasGlob {leadingColon : Bool} {before : List String}
    {target : ImportTarget} :
    (trees : List UseTree) → UseTree.anyHasGlob trees = false →
      glob target ∉ ofUseTrees leadingColon before trees
  | [], _ => by simp [ofUseTrees]
  | tree :: trees, h => by
      obtain ⟨htree, htrees⟩ := Bool.or_eq_false_iff.mp (by simpa only [UseTree.anyHasGlob] using h)
      rw [ofUseTrees, List.mem_append, not_or]
      exact ⟨not_glob_of_hasGlob tree htree, not_glob_of_anyHasGlob trees htrees⟩

end

theorem globOf?_eq_none_iff {m : ItemPath} {facts : List (ItemPath × Fact)} :
    facts.filterMap (globOf? m) = [] ↔ ∀ target, (m, glob target) ∉ facts := by
  rw [List.filterMap_eq_nil_iff]
  constructor
  · intro h target member
    simpa [globOf?] using h _ member
  · rintro h ⟨k, fact⟩ member
    cases fact with
    | glob target =>
        by_cases hk : k = m
        · exact absurd (hk ▸ member) (h target)
        · simp [globOf?, hk]
    | _ => rfl

/-- Only imports say anything of the globs of their own module. -/
theorem globs_of_importsGlob (m : ItemPath) {i : Item} (h : i.importsGlob = false) :
    (ofItem m i).filterMap (globOf? m) = [] := by
  rw [globOf?_eq_none_iff]
  intro target member
  rcases mem_ofItem_iff.mp member with
    ⟨said, hsaid, hsame⟩ | ⟨name, attributes, nested, rfl, hopened | hnested⟩
  · obtain rfl : glob target = said := (Prod.mk.inj hsame).2
    cases i with
    | use leadingColon tree => exact not_glob_of_hasGlob tree h hsaid
    | function | contract | declaration => simp [own, ofName] at hsaid
    | submodule | externalCrate => simp [own, ofExternalCrate] at hsaid
    | _ => cases hsaid
  · cases (Prod.mk.inj hopened).2
  · -- what is stated inside is not of `m`, but of a longer path
    obtain ⟨names, hnames⟩ := (mem_ofItems_iff.mp hnested).liesBelow
    have hlength := congrArg (fun p => p.segments.length) hnames
    simp [ItemPath.join, ItemPath.extend] at hlength

/-- Only modules that are written in place say anything of the globs of other modules. -/
theorem globs_of_holdsFunctions {m k : ItemPath} (hne : k ≠ m) {i : Item}
    (h : i.holdsFunctions = false) : (ofItem m i).filterMap (globOf? k) = [] := by
  rw [globOf?_eq_none_iff]
  intro target member
  rcases mem_ofItem_iff.mp member with ⟨said, -, hsame⟩ | ⟨name, attributes, nested, rfl, -⟩
  · exact hne (Prod.mk.inj hsame).1
  · cases h

mutual

/-- What each import says of its module. -/
def importsOf (m : ItemPath) : Item → List (ItemPath × List Fact)
  | .use leadingColon tree => [(m, ofUseTree leadingColon [] tree)]
  | .externalCrate name rename => [(m, [ofExternalCrate name rename])]
  | .submodule name _ (some nested) => importsOfAll (m.join name) nested
  | _ => []

def importsOfAll (m : ItemPath) : List Item → List (ItemPath × List Fact)
  | [] => []
  | i :: items => importsOf m i ++ importsOfAll m items

end

theorem importsOfAll_eq_flatMap (m : ItemPath) (items : List Item) :
    importsOfAll m items = items.flatMap (importsOf m) := by
  induction items with
  | nil => rfl
  | cons i items ih => rw [importsOfAll, ih, List.flatMap_cons]

mutual

theorem importsOf_unplaced (m : ItemPath) : (i : Item) → importsOf m i.unplaced = importsOf m i
  | .submodule name _ (some nested) => by
      simp only [Item.unplaced, importsOf, importsOfAll_unplaced _ nested]
  | .submodule _ _ none => rfl
  | .use _ _ => rfl
  | .externalCrate _ _ => rfl
  | .function _ => rfl
  | .contract _ _ => rfl
  | .declaration _ => rfl
  | .implementation _ _ => rfl
  | .invocation _ _ => rfl
  | .other => rfl

theorem importsOfAll_unplaced (m : ItemPath) :
    (items : List Item) → importsOfAll m (Item.unplacedAll items) = importsOfAll m items
  | [] => rfl
  | i :: items => by
      rw [Item.unplacedAll, importsOfAll, importsOfAll, importsOf_unplaced m i,
        importsOfAll_unplaced m items]

end

/-- The names that some facts bind. -/
def boundNames (facts : List Fact) : List String :=
  facts.filterMap fun
    | binding name _ => some name
    | _ => none

/-- The targets that an import binds the name to in the module `m`. -/
def targetsIn (m : ItemPath) (name : String) (found : ItemPath × List Fact) : List ImportTarget :=
  (found.2.map fun fact => (found.1, fact)).filterMap (boundIn? m name)

theorem mem_boundNames_of_targetsIn {m : ItemPath} {name : String} {found : ItemPath × List Fact}
    (h : targetsIn m name found ≠ []) : found.1 = m ∧ name ∈ boundNames found.2 := by
  obtain ⟨target, member⟩ := List.exists_mem_of_ne_nil _ h
  obtain ⟨⟨k, fact⟩, hfact, hbound⟩ := List.mem_filterMap.mp member
  obtain ⟨inner, hinner, hsame⟩ := List.mem_map.mp hfact
  obtain ⟨rfl, rfl⟩ := Prod.mk.inj hsame
  cases inner with
  | binding bound found =>
      simp only [boundIn?, Option.ite_none_right_eq_some, Option.some.injEq] at hbound
      obtain ⟨⟨hk, rfl⟩, -⟩ := hbound
      exact ⟨hk, List.mem_filterMap.mpr ⟨_, hinner, rfl⟩⟩
  | _ => cases hbound

mutual

/-- Names are bound by imports alone. -/
theorem bound_ofItem (m k : ItemPath) (name : String) : (i : Item) →
    (ofItem m i).filterMap (boundIn? k name) = (importsOf m i).flatMap (targetsIn k name)
  | .use _ _ => by simp only [ofItem, importsOf, List.flatMap_singleton, targetsIn]
  | .externalCrate _ _ => by
      simp only [ofItem, importsOf, List.flatMap_singleton, targetsIn, List.map_cons, List.map_nil]
  | .submodule word _ (some nested) => by
      simp only [ofItem, importsOf, List.filterMap_cons, boundIn?,
        bound_ofItems (m.join word) k name nested]
  | .submodule _ _ none => rfl
  | .function f => by simp only [ofItem, ofName, importsOf]; split <;> rfl
  | .contract word _ => by simp only [ofItem, ofName, importsOf]; split <;> rfl
  | .declaration word => by simp only [ofItem, ofName, importsOf]; split <;> rfl
  | .implementation _ _ => rfl
  | .invocation _ _ => rfl
  | .other => rfl

theorem bound_ofItems (m k : ItemPath) (name : String) : (items : List Item) →
    (ofItems m items).filterMap (boundIn? k name) =
      (importsOfAll m items).flatMap (targetsIn k name)
  | [] => rfl
  | i :: items => by
      rw [ofItems, importsOfAll, List.filterMap_append, List.flatMap_append,
        bound_ofItem m k name i, bound_ofItems m k name items]

end

end Fact

/-- Only modules that are written in place, functions and blocks of functions hold functions. -/
theorem Declaration.ofItem_eq_nil {t : SymbolTable} {registration : ItemPath}
    {place : Place} {item : Item}
    (h : item.holdsFunctions = false) : ofItem t registration place item = [] := by
  cases item with
  | submodule name attributes content => cases content <;> first | rfl | cases h
  | function | implementation | contract => cases h
  | _ => rfl

namespace SymbolTable

theorem globs_eq (t : SymbolTable) (m : ItemPath) :
    t.globs m = t.facts.filterMap (Fact.globOf? m) := by
  rw [globs, factsOf, List.filterMap_map, List.filterMap_filter]
  apply List.filterMap_congr
  rintro ⟨k, fact⟩ -
  by_cases hk : k = m <;> cases fact <;> simp [Fact.globOf?, hk]

theorem import?_eq (t : SymbolTable) (m : ItemPath) (name : String) :
    t.import? m name = (t.facts.filterMap (Fact.boundIn? m name)).getLast? := by
  rw [import?, ← List.head?_filterMap, List.filterMap_reverse, List.head?_reverse, factsOf,
    List.filterMap_map, List.filterMap_filter]
  congr 1
  apply List.filterMap_congr
  rintro ⟨k, fact⟩ -
  by_cases hk : k = m <;> cases fact <;> simp [Fact.boundIn?, hk]

end SymbolTable

namespace Item.Rearranged

variable {items others : List Item}

/-- The same modules without a body are declared. -/
theorem declared (h : Rearranged items others) (site : PendingModule.Site) (next : PendingModule) :
    next ∈ PendingModule.declaredAll site items ↔ next ∈ PendingModule.declaredAll site others := by
  induction h generalizing site with
  | laid hlaid => rw [PendingModule.declaredAll_alike site hlaid]
  | arranged hperm _ => simp only [PendingModule.mem_declaredAll, hperm.mem_iff]
  | inside _ ih =>
      simp [PendingModule.declaredAll_append, PendingModule.declaredAll, PendingModule.declared, ih]
  | trans _ _ ih ih' => rw [ih, ih']

/-- The same is said of every module. -/
theorem facts (h : Rearranged items others) (m : ItemPath) :
    (Fact.ofItems m items).Perm (Fact.ofItems m others) := by
  induction h generalizing m with
  | laid hlaid => rw [Fact.ofItems_alike m hlaid]
  | arranged hperm _ =>
      rw [Fact.ofItems_eq_flatMap, Fact.ofItems_eq_flatMap]
      exact hperm.flatMap_right _
  | @inside _ _ _ _ name _ _ ih =>
      simp only [Fact.ofItems_eq_flatMap, List.flatMap_append, List.flatMap_cons, Fact.ofItem]
      simp only [← Fact.ofItems_eq_flatMap]
      exact ((((ih (m.join name)).cons _).cons _).append_right _).append_left _
  | trans _ _ ih ih' => exact (ih m).trans (ih' m)

/-- The same imports stand in every module. -/
theorem imports (h : Rearranged items others) (m : ItemPath) :
    (Fact.importsOfAll m items).Perm (Fact.importsOfAll m others) := by
  induction h generalizing m with
  | laid hlaid => rw [← Fact.importsOfAll_unplaced, hlaid, Fact.importsOfAll_unplaced]
  | arranged hperm _ =>
      rw [Fact.importsOfAll_eq_flatMap, Fact.importsOfAll_eq_flatMap]
      exact hperm.flatMap_right _
  | @inside _ _ _ _ name _ _ ih =>
      simp only [Fact.importsOfAll_eq_flatMap, List.flatMap_append, List.flatMap_cons,
        Fact.importsOf]
      simp only [← Fact.importsOfAll_eq_flatMap]
      exact ((ih (m.join name)).append_right _).append_left _
  | trans _ _ ih ih' => exact (ih m).trans (ih' m)

/-- The glob imports of every module stand in the same order. -/
theorem globs (h : Rearranged items others) (m k : ItemPath) :
    (Fact.ofItems m items).filterMap (Fact.globOf? k) =
      (Fact.ofItems m others).filterMap (Fact.globOf? k) := by
  induction h generalizing m with
  | laid hlaid => rw [Fact.ofItems_alike m hlaid]
  | arranged _ hsame =>
      simp only [Fact.ofItems_eq_flatMap, List.filterMap_flatMap]
      by_cases hk : k = m
      · subst hk
        have hglobs := fun i => @Fact.globs_of_importsGlob k i
        rw [flatMap_eq_filter hglobs, hsame.globs, ← flatMap_eq_filter hglobs]
      · have hinside := fun i => @Fact.globs_of_holdsFunctions m k hk i
        rw [flatMap_eq_filter hinside, hsame.functions, ← flatMap_eq_filter hinside]
  | @inside _ _ _ _ name _ _ ih =>
      simp only [Fact.ofItems_eq_flatMap, List.flatMap_append, List.flatMap_cons, Fact.ofItem,
        List.filterMap_append, List.filterMap_cons]
      simp only [← Fact.ofItems_eq_flatMap, ih (m.join name)]
  | trans _ _ ih ih' => rw [ih m, ih' m]

/-- The same functions are marked, in the same order, each maybe at another place. -/
theorem functions (h : Rearranged items others) (t : SymbolTable) (registration : ItemPath)
    (place : Declaration.Place) :
    (Declaration.ofItems t registration place items).map Declaration.unplaced =
      (Declaration.ofItems t registration place others).map Declaration.unplaced := by
  induction h generalizing place with
  | laid hlaid => exact Declaration.ofItems_alike t registration rfl hlaid
  | arranged _ hsame =>
      have hothers := fun item => @Declaration.ofItem_eq_nil t registration place item
      rw [Declaration.ofItems_eq_flatMap, Declaration.ofItems_eq_flatMap, flatMap_eq_filter hothers,
        hsame.functions, ← flatMap_eq_filter hothers]
  | inside _ ih =>
      simp only [Declaration.ofItems_append, Declaration.ofItems, Declaration.ofItem,
        List.map_append, ih]
  | trans _ _ ih ih' => rw [ih place, ih' place]

end Item.Rearranged

end MarkerIndex
