import MarkerIndex.Pass
import MarkerIndex.Proofs.Directive
import MarkerIndex.Proofs.External
import MarkerIndex.Proofs.ModuleTree
import MarkerIndex.Proofs.Pass
/-!
A directive and an attribute of one spelling. The directive is read before the requested markers are
registered and the attribute after, so that a glob import from outside of the crate may give the
attribute another identity. Where it does not, the function is on the list that the directive asked
for.
-/

namespace MarkerIndex

namespace Declaration

variable (t : SymbolTable) (registration : ItemPath) (place : Place)

theorem mem_ofItems {items : List Item} {item : Item} (hitem : item ∈ items) {d : Declaration}
    (h : d ∈ ofItem t registration place item) : d ∈ ofItems t registration place items := by
  induction items with
  | nil => cases hitem
  | cons first rest ih =>
      rcases List.mem_cons.mp hitem with rfl | hrest
      · simp [ofItems, h]
      · simp [ofItems, ih hrest]

/-- A function with a marker is recorded, with what the marker means in its module. -/
theorem exists_ofFunction? {f : Function} {a : Attribute} (ha : a ∈ f.attributes)
    (hmarker : a.isMarker = true) :
    ∃ d, ofFunction? t registration place f = some d ∧
      (t.resolvePath place.module a.path).path ∈ d.markers := by
  have hmarks : ((t.resolvePath place.module a.path).path, a) ∈
      (f.attributes.filter Attribute.isMarker).map fun a =>
        ((t.resolvePath place.module a.path).path, a) :=
    List.mem_map.mpr ⟨a, List.mem_filter.mpr ⟨ha, hmarker⟩, rfl⟩
  have hne := List.isEmpty_eq_false_iff.mpr (List.ne_nil_of_mem hmarks)
  refine ⟨_, by rw [ofFunction?, hne]; rfl, ?_⟩
  exact List.mem_eraseDups.mpr (List.mem_map.mpr ⟨_, hmarks, rfl⟩)

end Declaration

/-- The name of a function stands on the list of a requested marker that it carries. -/
theorem Classification.mem_ofDeclarations {scan : List Declaration} {markers : List ItemPath}
    {d : Declaration} (hd : d ∈ scan) {marker : ItemPath} (hrequested : marker ∈ markers)
    (hcarries : marker ∈ d.markers) {name : String} (hname : d.registration = some name) :
    ∃ e ∈ (ofDeclarations scan markers).entries, e.marker = marker ∧ name ∈ e.names := by
  refine ⟨_, List.mem_map.mpr ⟨marker, hrequested, rfl⟩, rfl, ?_⟩
  refine List.mem_filterMap.mpr ⟨d, List.mem_filter.mpr ⟨hd, ?_⟩, hname⟩
  simpa [Declaration.carries] using hcarries

namespace Pass

/-- A function at the top of the root file that carries an attribute of the spelling of a directive
is recorded with the marker of the directive, and so its name stands on the list of that marker,
where the spelling means an item of the crate or no glob import redirects it. -/
theorem marker_of_same_spelling {c : Corpus} {settings : Settings} {report : Report}
    (h : analyze c settings = .ok report) {root : SourceFile} (hroot : c.root? = some root)
    {call : WrittenPath} {body : List TokenTree} (hcall : .invocation call body ∈ root.items)
    (hdirective : Directive.isDirective ((firstTable c settings).resolvePath root.module call)
      settings.directive = true)
    {shape : Grammar.PathShape} (hshape : Grammar.parsePathTokens body = .ok shape)
    {f : Function} (hf : .function f ∈ root.items) {a : Attribute} (ha : a ∈ f.attributes)
    (hmarker : a.isMarker = true) (hsegments : a.path.segments = shape.path.segments)
    (hcolon : a.path.leadingColon = shape.path.leadingColon)
    (hsteady : ((firstTable c settings).resolvePath root.module shape.path).origin = .local ∨
      (firstTable c settings).Unredirected report.markers
        ⟨root.module, ⟨shape.path.segments, shape.path.leadingColon⟩, none, true⟩) :
    ∃ marker ∈ report.markers,
      Directive.marker (firstTable c settings) root call.line body = .ok marker ∧
      ∃ d ∈ report.declarations,
        Declaration.ofFunction? ((firstTable c settings).withExternal report.markers)
          settings.registration ⟨root.path, root.module, none⟩ f = some d ∧
        marker ∈ d.markers ∧
        ∀ name, d.registration = some name →
          ∃ e ∈ report.classification.entries, e.marker = marker ∧ name ∈ e.names := by
  obtain ⟨hfound, hreport⟩ := analyze_eq_ok_iff.mp h
  obtain ⟨marker, hrequested, hread⟩ := Directive.exists_marker hfound hroot hcall hdirective
  obtain ⟨d, hd, hcarried⟩ := Declaration.exists_ofFunction?
    ((firstTable c settings).withExternal report.markers) settings.registration
    ⟨root.path, root.module, none⟩ ha hmarker
  have hscanned : d ∈ report.declarations := by
    rw [hreport]
    refine List.mem_flatMap.mpr ⟨root, List.mem_of_find?_eq_some hroot, ?_⟩
    exact Declaration.mem_ofItems _ _ _ hf (by simp [Declaration.ofItem, hd])
  -- the attribute means what the argument of the directive means
  have hsame :
      ((firstTable c settings).withExternal report.markers).resolvePath root.module a.path =
      (firstTable c settings).resolvePath root.module shape.path := by
    rw [SymbolTable.resolvePath, SymbolTable.resolvePath, hsegments, hcolon]
    exact (SymbolTable.resolve_withExternal (hsteady.symm.imp_right Or.inl)).symm
  obtain ⟨rfl, -⟩ := Directive.of_marker hshape hread
  rw [hsame] at hcarried
  refine ⟨_, hrequested, hread, d, hscanned, hd, hcarried, fun name hname => ?_⟩
  rw [hreport] at hscanned ⊢
  exact Classification.mem_ofDeclarations hscanned hrequested hcarried hname

/-- The tokens of a path, all at one place. -/
def spell : List String → List TokenTree
  | [] => []
  | [name] => [.leaf .first (.word name)]
  | name :: names =>
    .leaf .first (.word name) :: .leaf .first (.punct ':' true) :: .leaf .first
      (.punct ':' false) ::
      spell names

/-- A registered function that carries `a::X`. -/
def marked : Function :=
  ⟨[⟨false, ⟨false, ["a", "X"], 1⟩, .none⟩,
    ⟨false, ⟨false, ["functions_worker", "function"], 1⟩,
      .tokens [.leaf .first (.literal "\"F\"")]⟩],
    "f", 1⟩

/-- The root file of a crate that asks for some lists, next to a glob import from outside of it. -/
def besideGlob (asked : List (List String)) : SourceFile :=
  ⟨⟨"lib.rs"⟩, .crateRoot,
    (asked.map fun names => .invocation ⟨false, ["generate_functions_with"], 1⟩ (spell names)) ++
      [.use false (.path "dep" .glob), .function marked], true⟩

/-- What is found in such a crate, by the other marker that is asked for and the meaning of `a::X`
as an attribute. -/
def foundBeside (other mark : ItemPath) : Report :=
  let scan : List Declaration :=
    [⟨.crateRoot, none, "f", ⟨"lib.rs"⟩, 1, [mark, ⟨["functions_worker", "function"]⟩], some "F"⟩]
  ⟨[⟨["a", "X"]⟩, other], scan, .ofDeclarations scan [⟨["a", "X"]⟩, other]⟩

/-- Asked for by itself, the marker is kept. -/
theorem marker_kept_beside_glob :
    let root := besideGlob [["a", "X"], ["dep", "Y"]]
    let report := foundBeside ⟨["dep", "Y"]⟩ ⟨["a", "X"]⟩
    analyze ⟨[root]⟩ .standard = .ok report ∧
    ∃ marker ∈ report.markers,
      Directive.marker (firstTable ⟨[root]⟩ .standard) root 1 (spell ["a", "X"]) = .ok marker ∧
      ∃ d ∈ report.declarations, marker ∈ d.markers ∧
        ∀ name, d.registration = some name →
          ∃ e ∈ report.classification.entries, e.marker = marker ∧ name ∈ e.names := by
  intro root report
  have h : analyze ⟨[root]⟩ .standard = .ok report := ok_of_toOption (by decide +kernel)
  have hdirective : Directive.isDirective ((firstTable ⟨[root]⟩ .standard).resolvePath .crateRoot
      ⟨false, ["generate_functions_with"], 1⟩) Settings.standard.directive = true := by
    decide +kernel
  have hroot : (Corpus.mk [root]).root? = some root := rfl
  have hmarked : .function marked ∈ root.items := by simp [root, besideGlob]
  have hshape : Grammar.parsePathTokens (spell ["a", "X"]) =
      .ok ⟨⟨false, ["a", "X"], 1⟩, true, true, false⟩ := rfl
  have hsteady : (firstTable ⟨[root]⟩ .standard).Unredirected report.markers
      ⟨.crateRoot, ⟨["a", "X"], false⟩, none, true⟩ :=
    ⟨fun _ => by decide +kernel, fun _ => SymbolTable.free_of_facts (by decide +kernel)⟩
  obtain ⟨marker, hrequested, hread, d, hd, -, hcarried, hlisted⟩ :=
    marker_of_same_spelling h hroot List.mem_cons_self hdirective hshape hmarked
      List.mem_cons_self rfl rfl rfl (Or.inr hsteady)
  exact ⟨h, marker, hrequested, hread, d, hd, hcarried, hlisted⟩

/-- Asked for below the glob import as well, the directive and the attribute of one spelling part:
the function is on the list of the other marker, and the list of its own spelling is empty. -/
theorem marker_redirected_beside_glob :
    let root := besideGlob [["a", "X"], ["dep", "a", "X"]]
    let report := foundBeside ⟨["dep", "a", "X"]⟩ ⟨["dep", "a", "X"]⟩
    Corpus.Loaded ⟨[root]⟩ ∧ analyze ⟨[root]⟩ .standard = .ok report ∧
    Directive.isDirective ((firstTable ⟨[root]⟩ .standard).resolvePath .crateRoot
      ⟨false, ["generate_functions_with"], 1⟩) Settings.standard.directive = true ∧
    (Directive.marker (firstTable ⟨[root]⟩ .standard) root 1 (spell ["a", "X"])).toOption =
      some ⟨["a", "X"]⟩ ∧
    (∀ d ∈ report.declarations, d.registration = some "F" ∧ (⟨["a", "X"]⟩ : ItemPath) ∉ d.markers) ∧
    report.classification.namesFor? ⟨["a", "X"]⟩ = some [] ∧
    report.classification.namesFor? ⟨["dep", "a", "X"]⟩ = some ["F"] := by
  intro root report
  exact ⟨Corpus.loaded_ofItems root.items (by decide +kernel), ok_of_toOption (by decide +kernel),
    by decide +kernel⟩

end Pass

end MarkerIndex
