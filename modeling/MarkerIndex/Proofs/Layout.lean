import MarkerIndex.Crate.Scan
import MarkerIndex.Proofs.Directive
import MarkerIndex.Proofs.ModuleTree
import MarkerIndex.Proofs.PlainPath
import MarkerIndex.Proofs.Words
/-!
Items without the places that their texts stand at. What a file says of its modules, what it
declares and which functions it marks, the lines aside, can be told from these alone, so that text
may be moved about in a file, or into another one.
-/

namespace MarkerIndex

def WrittenPath.unplaced (p : WrittenPath) : WrittenPath :=
  { p with line := 0 }

def AttributeArgument.unplaced : AttributeArgument → AttributeArgument
  | .none => .none
  | .tokens content => .tokens (TokenTree.unplacedAll content)
  | .value text => .value text

def Attribute.unplaced (a : Attribute) : Attribute :=
  ⟨a.inner, a.path.unplaced, a.argument.unplaced⟩

def Function.unplaced (f : Function) : Function :=
  ⟨f.attributes.map Attribute.unplaced, f.name, 0⟩

mutual

/-- The item with all places of its text forgotten. -/
def Item.unplaced : Item → Item
  | .use leadingColon tree => .use leadingColon tree
  | .externalCrate name rename => .externalCrate name rename
  | .submodule name attributes (some nested) =>
    .submodule name (attributes.map Attribute.unplaced) (some (Item.unplacedAll nested))
  | .submodule name attributes none => .submodule name (attributes.map Attribute.unplaced) none
  | .function f => .function f.unplaced
  | .implementation owner functions => .implementation owner (functions.map Function.unplaced)
  | .contract name functions => .contract name (functions.map Function.unplaced)
  | .invocation path body => .invocation path.unplaced (TokenTree.unplacedAll body)
  | .declaration name => .declaration name
  | .other => .other

def Item.unplacedAll : List Item → List Item
  | [] => []
  | item :: items => item.unplaced :: Item.unplacedAll items

end

theorem Item.unplacedAll_eq_map (items : List Item) : unplacedAll items = items.map unplaced := by
  induction items with
  | nil => rfl
  | cons item items ih => rw [unplacedAll, ih, List.map_cons]

namespace Attribute

theorem pathValue?_unplaced (a : Attribute) : a.unplaced.pathValue? = a.pathValue? := by
  obtain ⟨inner, path, argument⟩ := a
  cases argument <;> rfl

theorem textArgument?_unplaced (a : Attribute) : a.unplaced.textArgument? = a.textArgument? := by
  obtain ⟨inner, path, argument⟩ := a
  cases argument with
  | none => rfl
  | value text => rfl
  | tokens content =>
    rcases content with _ | ⟨⟨_, _ | _ | _⟩ | _, _ | _⟩ <;> rfl

theorem findSome?_pathValue?_unplaced (attributes : List Attribute) :
    (attributes.map unplaced).findSome? pathValue? = attributes.findSome? pathValue? := by
  rw [List.findSome?_map]
  exact congrArg (List.findSome? · attributes) (funext pathValue?_unplaced)

end Attribute

namespace Fact

mutual

theorem ofItem_unplaced (m : ItemPath) : (i : Item) → ofItem m i.unplaced = ofItem m i
  | .submodule name _ (some nested) => by
      simp only [Item.unplaced, ofItem, ofItems_unplaced _ nested]
  | .submodule _ _ none => rfl
  | .use _ _ => rfl
  | .externalCrate _ _ => rfl
  | .function _ => rfl
  | .contract _ _ => rfl
  | .declaration _ => rfl
  | .implementation _ _ => rfl
  | .invocation _ _ => rfl
  | .other => rfl

theorem ofItems_unplaced (m : ItemPath) :
    (items : List Item) → ofItems m (Item.unplacedAll items) = ofItems m items
  | [] => rfl
  | i :: items => by
      rw [Item.unplacedAll, ofItems, ofItems, ofItem_unplaced m i, ofItems_unplaced m items]

end

theorem ofItems_alike (m : ItemPath) {items others : List Item}
    (h : Item.unplacedAll items = Item.unplacedAll others) :
    ofItems m items = ofItems m others := by
  rw [← ofItems_unplaced, h, ofItems_unplaced]

end Fact

namespace PendingModule

mutual

theorem declared_unplaced (site : Site) :
    (item : Item) → declared site item.unplaced = declared site item
  | .submodule name attributes (some nested) => by
      simp only [Item.unplaced, declared, Attribute.findSome?_pathValue?_unplaced,
        declaredAll_unplaced _ nested]
  | .submodule name attributes none => by
      simp only [Item.unplaced, declared, Attribute.findSome?_pathValue?_unplaced]
  | .use _ _ => rfl
  | .externalCrate _ _ => rfl
  | .function _ => rfl
  | .contract _ _ => rfl
  | .declaration _ => rfl
  | .implementation _ _ => rfl
  | .invocation _ _ => rfl
  | .other => rfl

theorem declaredAll_unplaced (site : Site) :
    (items : List Item) → declaredAll site (Item.unplacedAll items) = declaredAll site items
  | [] => rfl
  | item :: items => by
      rw [Item.unplacedAll, declaredAll, declaredAll, declared_unplaced site item,
        declaredAll_unplaced site items]

end

theorem declaredAll_alike (site : Site) {items others : List Item}
    (h : Item.unplacedAll items = Item.unplacedAll others) :
    declaredAll site items = declaredAll site others := by
  rw [← declaredAll_unplaced, h, declaredAll_unplaced]

end PendingModule

namespace Declaration

/-- The declaration without the place that its function stands at. -/
def unplaced (d : Declaration) : Declaration :=
  { d with file := ⟨""⟩, line := 0 }

def Place.unplaced (place : Place) : Place :=
  { place with file := ⟨""⟩ }

section

variable (t : SymbolTable) (registration : ItemPath)

theorem ofFunction?_unplaced (place : Place) (f : Function) :
    ofFunction? t registration place.unplaced f.unplaced =
      (ofFunction? t registration place f).map unplaced := by
  let marks := (f.attributes.filter Attribute.isMarker).map fun a =>
    ((t.resolvePath place.module a.path).path, a)
  let found : Option Declaration := if marks.isEmpty then none else some {
    module := place.module
    owner := place.owner
    name := Text.unraw f.name
    file := place.file
    line := f.line
    markers := (marks.map (·.1)).eraseDups
    registration := (marks.find? (·.1 = registration)).bind (·.2.textArgument?) }
  have hfound : ofFunction? t registration place f = found := rfl
  have hmarks : (f.unplaced.attributes.filter Attribute.isMarker).map (fun a =>
      ((t.resolvePath place.unplaced.module a.path).path, a)) =
        marks.map fun m => (m.1, m.2.unplaced) := by
    simp only [marks, Function.unplaced, List.filter_map, List.map_map]
    rfl
  rw [hfound, ofFunction?, hmarks]
  by_cases hempty : marks = []
  · simp [found, hempty]
  · simp only [found, List.isEmpty_iff, List.map_eq_nil_iff, hempty, List.find?_map, List.map_map,
      Option.bind_map, Function.comp_def, Attribute.textArgument?_unplaced]
    rfl

theorem filterMap_unplaced (place : Place) (functions : List Function) :
    (functions.map Function.unplaced).filterMap (ofFunction? t registration place.unplaced) =
      (functions.filterMap (ofFunction? t registration place)).map unplaced := by
  rw [List.filterMap_map, List.map_filterMap]
  exact List.filterMap_congr fun f _ => ofFunction?_unplaced t registration place f

mutual

theorem ofItem_unplaced (place : Place) : (item : Item) →
    ofItem t registration place.unplaced item.unplaced =
      (ofItem t registration place item).map unplaced
  | .function f => by
      simp only [Item.unplaced, ofItem, ofFunction?_unplaced]
      cases ofFunction? t registration place f <;> rfl
  | .implementation owner functions => by
      simp only [Item.unplaced, ofItem]
      exact filterMap_unplaced t registration { place with owner := some owner } functions
  | .contract name functions => by
      simp only [Item.unplaced, ofItem]
      exact filterMap_unplaced t registration
        { place with owner := some (Text.unraw name) } functions
  | .submodule name _ (some content) => by
      simp only [Item.unplaced, ofItem]
      exact ofItems_unplaced { place with module := place.module.join name, owner := none } content
  | .submodule _ _ none => rfl
  | .use _ _ => rfl
  | .externalCrate _ _ => rfl
  | .invocation _ _ => rfl
  | .declaration _ => rfl
  | .other => rfl

theorem ofItems_unplaced (place : Place) : (items : List Item) →
    ofItems t registration place.unplaced (Item.unplacedAll items) =
      (ofItems t registration place items).map unplaced
  | [] => rfl
  | item :: items => by
      rw [Item.unplacedAll, ofItems, ofItems, List.map_append, ofItem_unplaced place item,
        ofItems_unplaced place items]

end

theorem ofItems_alike {place place' : Place} {items others : List Item}
    (hplace : place.unplaced = place'.unplaced)
    (h : Item.unplacedAll items = Item.unplacedAll others) :
    (ofItems t registration place items).map unplaced =
      (ofItems t registration place' others).map unplaced := by
  rw [← ofItems_unplaced, hplace, h, ofItems_unplaced]

end

/-- What a list holds does not depend on where functions stand. -/
theorem registrations_unplaced (marker : ItemPath) (found : List Declaration) :
    ((found.map unplaced).filter (·.carries marker)).filterMap (·.registration) =
      (found.filter (·.carries marker)).filterMap (·.registration) := by
  rw [List.filter_map, List.filterMap_map]
  rfl

end Declaration

namespace Directive

open TokenTree (unplacedAll)

/-- The call that an item is. -/
def call? : Item → Option (WrittenPath × List TokenTree)
  | .invocation path body => some (path, body)
  | _ => none

/-- The arguments of the directives among some calls. -/
def argument? (t : SymbolTable) (m : ItemPath) (directive : ItemPath)
    (call : WrittenPath × List TokenTree) : Option (List TokenTree) :=
  if isDirective (t.resolvePath m call.1) directive then some call.2 else none

variable {t t' : SymbolTable} {settings : Settings} {root root' : SourceFile}

/-- The directives of a file can be told from its items without places. -/
theorem unplaced_calls (t : SymbolTable) (settings : Settings) (root : SourceFile) :
    (calls t settings root).map (fun call => unplacedAll call.2) =
      ((Item.unplacedAll root.items).filterMap call?).filterMap
        (argument? t root.module settings.directive) := by
  rw [Item.unplacedAll_eq_map, calls, List.filterMap_map, List.filterMap_filterMap,
    List.map_filterMap]
  apply List.filterMap_congr
  intro item _
  cases item with
  | invocation path body =>
      simp only [Function.comp_def, Item.unplaced, call?, Option.bind_some, argument?,
        SymbolTable.resolvePath, WrittenPath.unplaced]
      exact apply_ite _ _ _ _
  | submodule name attributes content => cases content <;> rfl
  | _ => rfl

/-- A marker that the argument of a directive names is named by it at any other place. -/
theorem marker_alike {line line' : Nat} {body body' : List TokenTree}
    (hbody : unplacedAll body = unplacedAll body') (hmodule : root'.module = root.module)
    (hresolve : ∀ p, Grammar.AllSegments p.segments →
      t'.resolvePath root.module p = t.resolvePath root.module p)
    (hcontains : ∀ p, t.contains p = true → t'.contains p = true) {p : ItemPath}
    (h : marker t root line body = .ok p) : marker t' root' line' body' = .ok p := by
  cases hshape : Grammar.parsePathTokens body with
  | error failure => simp [marker, hshape] at h
  | ok shape =>
      obtain ⟨rfl, hknown⟩ := of_marker hshape h
      have hplain : shape.plain = true := by
        cases hplain : shape.plain with
        | true => rfl
        | false => simp [marker, hshape, hplain] at h
      obtain ⟨shape', hshape', hplain', hwords⟩ :=
        Grammar.parsePathTokens_alike hbody hshape hplain
      have hsegments := Grammar.allSegments_of_parsePathTokens hshape'
      have hsame :
          t'.resolvePath root'.module shape'.path = t.resolvePath root.module shape.path := by
        obtain ⟨hleading, hsame⟩ := Prod.mk.inj hwords
        rw [hmodule, hresolve _ hsegments, SymbolTable.resolvePath, SymbolTable.resolvePath,
          hleading, hsame]
      have hknown' : isKnown t' (t.resolvePath root.module shape.path) = true := by
        unfold isKnown at hknown ⊢
        split at hknown <;> simp_all
      simp [marker, hshape', hplain', hsame, hknown']

/-- Directives of the same arguments that get through give the same markers at other places, where
paths mean the same and what was known still is. -/
theorem markers_of_arguments {c c' : Corpus} {found : List ItemPath} (hroot : c.root? = some root)
    (hroot' : c'.root? = some root') (hmodule : root'.module = root.module)
    (harguments : (calls t' settings root').map (fun call => unplacedAll call.2) =
      (calls t settings root).map fun call => unplacedAll call.2)
    (hresolve : ∀ p, Grammar.AllSegments p.segments →
      t'.resolvePath root.module p = t.resolvePath root.module p)
    (hcontains : ∀ p, t.contains p = true → t'.contains p = true)
    (h : markers c t settings = .ok found) : markers c' t' settings = .ok found := by
  let Names (body : List TokenTree) (p : ItemPath) : Prop :=
    ∃ line found, unplacedAll found = body ∧ marker t root line found = .ok p
  obtain ⟨paths, hall, rfl⟩ := exists_of_markers h hroot
  have hnames : List.Forall₂ Names ((calls t settings root).map fun call => unplacedAll call.2)
      paths := by
    rw [List.forall₂_map_left_iff]
    exact (Traversal.mapM_eq_ok_iff.mp hall).imp fun call p hp => ⟨call.1, call.2, rfl, hp⟩
  rw [← harguments, List.forall₂_map_left_iff] at hnames
  have hall' : (calls t' settings root').mapM (fun call => marker t' root' call.1 call.2) =
      .ok paths := by
    refine Traversal.mapM_eq_ok_iff.mpr (hnames.imp ?_)
    rintro ⟨line', body'⟩ p ⟨line, body, hbody, hp⟩
    exact marker_alike hbody hmodule hresolve hcontains hp
  rw [markers_of_root hroot', hall']
  rfl

/-- Directives that get through give the same markers at other places in the root file, where paths
mean the same and what was known still is. -/
theorem markers_alike {c c' : Corpus} {found : List ItemPath} (hroot : c.root? = some root)
    (hroot' : c'.root? = some root') (hmodule : root'.module = root.module)
    (hcalls : (Item.unplacedAll root'.items).filterMap call? =
      (Item.unplacedAll root.items).filterMap call?)
    (hresolve : ∀ p, t'.resolvePath root.module p = t.resolvePath root.module p)
    (hcontains : ∀ p, t.contains p = true → t'.contains p = true)
    (h : markers c t settings = .ok found) : markers c' t' settings = .ok found := by
  refine markers_of_arguments hroot hroot' hmodule ?_ (fun p _ => hresolve p) hcontains h
  rw [unplaced_calls, unplaced_calls, hcalls, hmodule]
  exact List.filterMap_congr fun call _ => by simp only [argument?, hresolve]

/-- Directives that get through give the same markers where their paths mean the same and what was
known still is. -/
theorem markers_congr {c c' : Corpus} {found : List ItemPath} (hroot : c'.root? = c.root?)
    (hresolve : ∀ root, c.root? = some root → ∀ p,
      t'.resolvePath root.module p = t.resolvePath root.module p)
    (hcontains : ∀ p, t.contains p = true → t'.contains p = true)
    (h : markers c t settings = .ok found) : markers c' t' settings = .ok found := by
  cases hfound : c.root? with
  | none => simpa [markers, hroot, hfound] using h
  | some root =>
      exact markers_alike hfound (hroot.trans hfound) rfl rfl (hresolve root hfound) hcontains h

end Directive

end MarkerIndex
