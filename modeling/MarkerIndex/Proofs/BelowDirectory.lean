import MarkerIndex.Proofs.Discovery
import MarkerIndex.Proofs.GeneratedSource
import MarkerIndex.Proofs.ModuleFiles
import MarkerIndex.Proofs.ParallelLoading
/-!
What lies below a directory, as seen from there. A path below a directory in normal form is the path
from there, joined to that of the directory. Modules that are found by their names are declared
below the directory of a crate, and from there the declarations mean the same files wherever the
directory lies.
-/

namespace MarkerIndex

/-- A directory, given by a path in normal form. -/
structure BaseDirectory where
  lead : List Component
  names : List String
  outset : FilePath.IsOutset lead
  areNames : FilePath.AreNames names

namespace BaseDirectory

open FilePath

/-- The directory itself, as seen from it. -/
def origin : BaseDirectory where
  lead := []
  names := []
  outset := ⟨0, Or.inl rfl⟩
  areNames := by simp [AreNames]

variable (b : BaseDirectory)

/-- What the names lead to from the directory. -/
def below (names : List String) : FilePath :=
  spelled b.lead (b.names ++ names)

variable {b} {names others : List String} {name : String}

theorem areNames_below (h : AreNames names) : AreNames (b.names ++ names) :=
  List.forall_mem_append.mpr ⟨b.areNames, h⟩

theorem isNormal_below (h : AreNames names) : (b.below names).IsNormal :=
  ⟨b.lead, b.names ++ names, b.outset, areNames_below h, rfl⟩

theorem below_concat (names : List String) (name : String) :
    b.below (names ++ [name]) = b.below names / name := by
  rw [below, below, ← List.append_assoc, spelled_concat]

theorem below_inj (h : AreNames names) (h' : AreNames others)
    (hsame : b.below names = b.below others) :
    names = others :=
  List.append_cancel_left
    (spelled_inj b.outset (areNames_below h) b.outset (areNames_below h') hsame).2

theorem below_eq_join (hnames : names ≠ []) :
    b.below names = (b.below []).join (origin.below names) := by
  rw [below, below, below, List.append_nil, spelled_append b.lead b.names hnames]
  rfl

theorem below?_below (h : AreNames names) :
    (b.below names).below? (b.below []) = some (names.map .normal) := by
  rw [below, below, List.append_nil, below?_spelled b.outset (areNames_below h)]

theorem ofComponents_map (names : List String) :
    ofComponents (names.map .normal) = origin.below names :=
  rfl

theorem normalize_join (h : AreNames names) (hname : (Component.normal name).IsName) :
    (b.below names / name).normalize = b.below (names ++ [name]) := by
  rw [← below_concat, (isNormal_below (h.concat hname)).normalize_eq]

/-- The files that may hold a module declared below a directory. -/
theorem candidatesOf_below {site : PendingModule.Site} (hsite : site.directory = b.below names)
    (h : AreNames names) (hname : (Component.normal name).IsName) :
    PendingModule.candidatesOf site name none =
      [(b.below (names ++ [name ++ ".rs"]), b.below (names ++ [name])),
        (b.below (names ++ [name] ++ ["mod.rs"]), b.below (names ++ [name]))] := by
  rw [PendingModule.candidatesOf, hsite, normalize_join h hname,
    normalize_join h (isName_source hname), below_concat (names ++ [name])]

/-- How paths below a directory stand for the paths from there. -/
def relation (b : BaseDirectory) : PathRelation where
  file path path' :=
    ∃ names, names ≠ [] ∧ AreNames names ∧ path = b.below names ∧ path' = origin.below names
  directory path path' :=
    ∃ names, AreNames names ∧ path = b.below names ∧ path' = origin.below names
  unique := by
    constructor
    · rintro path other path' ⟨names, -, hnames, rfl, rfl⟩ ⟨others, -, hothers, rfl, hsame⟩
      rw [below_inj hnames hothers hsame]
    · rintro path path' other ⟨names, -, hnames, rfl, rfl⟩ ⟨others, -, hothers, hsame, rfl⟩
      rw [below_inj hnames hothers hsame]

end BaseDirectory

namespace Text

/-- The name of a module, raw or not, is a name of files. -/
theorem isName_unraw {word : String} (h : IsWord word) :
    (Component.normal (unraw word)).IsName := by
  have hkept : ∀ c, c ∉ word.toList → c ∉ (unraw word).toList := by
    intro c hc member
    rcases eq_unraw_or_raw word with hplain | hraw
    · rw [hplain] at hc
      exact hc member
    · rw [hraw, String.toList_append] at hc
      exact hc (List.mem_append_right _ member)
  have hempty : (unraw word).toList ≠ [] := by
    intro hnil
    rcases eq_unraw_or_raw word with hplain | hraw
    · exact h.toList_ne_nil (hplain ▸ hnil)
    · have hblank : unraw word = "" := by simpa using hnil
      rw [hraw, hblank] at h
      exact absurd h (by decide)
  have hslash : '/' ∉ (unraw word).toList := hkept _ (h.not_mem (by decide) (by decide) (by decide))
  have hdot : '.' ∉ (unraw word).toList := hkept _ (h.not_mem (by decide) (by decide) (by decide))
  refine FilePath.isName_normal hslash ⟨hempty, ?_, ?_⟩
  all_goals exact fun hsame => hdot (by simp [hsame])

end Text

namespace Item

theorem AllSpelled.of_submodule {items : List Item} (h : AllSpelled items) {rawName : String}
    {attributes : List Attribute} {content : Option (List Item)}
    (member : .submodule rawName attributes content ∈ items) :
    (Component.normal (Text.unraw rawName)).IsName ∧
      ∀ nested, content = some nested → AllSpelled nested := by
  obtain ⟨hname, hnested⟩ := spelled_submodule_iff.mp (allSpelled_iff.mp h _ member)
  exact ⟨Text.isName_unraw (Grammar.isWord_of_isSegment hname), hnested⟩

/-- Modules that are found by their names, and names that are words. -/
structure FoundByName (items : List Item) : Prop where
  found : findModulesByName items = true
  spelled : AllSpelled items

theorem FoundByName.cons {item : Item} {items : List Item} (h : FoundByName (item :: items)) :
    (item.findsModulesByName = true ∧ item.Spelled) ∧ FoundByName items := by
  obtain ⟨hfound, hspelled⟩ := h
  simp only [findModulesByName, Bool.and_eq_true] at hfound
  obtain ⟨hitem, hitems⟩ := List.forall_mem_cons.mp (allSpelled_iff.mp hspelled)
  exact ⟨⟨hfound.1, hitem⟩, hfound.2, allSpelled_iff.mpr hitems⟩

theorem FoundByName.of_submodule {items : List Item} (h : FoundByName items) {rawName : String}
    {attributes : List Attribute} {content : Option (List Item)}
    (member : .submodule rawName attributes content ∈ items) :
    (Component.normal (Text.unraw rawName)).IsName ∧
    attributes.findSome? Attribute.pathValue? = none ∧
      ∀ nested, content = some nested → FoundByName nested := by
  obtain ⟨hname, hspelled⟩ := h.spelled.of_submodule member
  obtain ⟨hpath, hfound⟩ :=
    findsModulesByName_submodule_iff.mp (findModulesByName_iff.mp h.found _ member)
  exact ⟨hname, hpath, fun nested hcontent => ⟨hfound nested hcontent, hspelled nested hcontent⟩⟩

end Item

namespace BaseDirectory

open FilePath PendingModule

variable {b : BaseDirectory}

/-- Sites of one module, the one below a directory as the other from there. -/
structure Sites (b : BaseDirectory) (site site' : Site) : Prop where
  module : site'.module = site.module
  directory : b.relation.directory site.directory site'.directory

theorem Sites.candidates {site site' : Site} (h : b.Sites site site') {name : String}
    (hname : (Component.normal name).IsName) :
    List.Forall₂ (fun a c => b.relation.file a.1 c.1 ∧ b.relation.directory a.2 c.2)
      (candidatesOf site name none) (candidatesOf site' name none) := by
  obtain ⟨-, names, hnames, hdirectory, hdirectory'⟩ := h
  have hown : AreNames (names ++ [name]) := hnames.concat hname
  have hsource : AreNames (names ++ [name ++ ".rs"]) := hnames.concat (isName_source hname)
  have hmod : AreNames (names ++ [name] ++ ["mod.rs"]) := hown.concat (by decide)
  rw [candidatesOf_below hdirectory hnames hname, candidatesOf_below hdirectory' hnames hname]
  have hdirectories :
      b.relation.directory (b.below (names ++ [name])) (origin.below (names ++ [name])) :=
    ⟨names ++ [name], hown, rfl, rfl⟩
  exact .cons ⟨⟨_, by simp, hsource, rfl, rfl⟩, hdirectories⟩
    (.cons ⟨⟨_, by simp, hmod, rfl, rfl⟩, hdirectories⟩ .nil)

theorem Sites.inside {site site' : Site} (h : b.Sites site site') {rawName : String}
    (hname : (Component.normal (Text.unraw rawName)).IsName) {attributes : List Attribute}
    (hfound : attributes.findSome? Attribute.pathValue? = none) :
    b.Sites (site.inside rawName attributes) (site'.inside rawName attributes) := by
  obtain ⟨hmodule, names, hnames, hdirectory, hdirectory'⟩ := h
  refine ⟨by simp only [Site.inside, hmodule], names ++ [Text.unraw rawName], hnames.concat hname,
    ?_, ?_⟩
  · rw [below_concat, ← hdirectory]
    simp only [Site.inside, hfound, Option.getD_none]
  · rw [below_concat, ← hdirectory']
    simp only [Site.inside, hfound, Option.getD_none]

mutual

theorem Sites.declared {site site' : Site} (h : b.Sites site site') : (item : Item) →
    item.findsModulesByName = true → item.Spelled →
    List.Forall₂ b.relation.Pending (declared site item) (declared site' item)
  | .submodule rawName attributes (some nested), hfound, hspelled => by
      obtain ⟨hpath, hnested⟩ := Item.findsModulesByName_submodule_iff.mp hfound
      obtain ⟨hname, hspelled⟩ := Item.spelled_submodule_iff.mp hspelled
      exact (h.inside (Text.isName_unraw (Grammar.isWord_of_isSegment hname)) hpath).declaredAll
        nested
        ⟨hnested nested rfl, hspelled nested rfl⟩
  | .submodule rawName attributes none, hfound, hspelled => by
      obtain ⟨hpath, -⟩ := Item.findsModulesByName_submodule_iff.mp hfound
      obtain ⟨hname, -⟩ := Item.spelled_submodule_iff.mp hspelled
      simp only [PendingModule.declared, hpath]
      exact .cons ⟨by simp only [h.module],
        h.candidates (Text.isName_unraw (Grammar.isWord_of_isSegment hname))⟩ .nil
  | .use _ _, _, _ => .nil
  | .externalCrate _ _, _, _ => .nil
  | .function _, _, _ => .nil
  | .contract _ _, _, _ => .nil
  | .declaration _, _, _ => .nil
  | .implementation _ _, _, _ => .nil
  | .invocation _ _, _, _ => .nil
  | .other, _, _ => .nil

theorem Sites.declaredAll {site site' : Site} (h : b.Sites site site') : (items : List Item) →
    Item.FoundByName items →
    List.Forall₂ b.relation.Pending (declaredAll site items) (declaredAll site' items)
  | [], _ => .nil
  | item :: items, hitems => by
      obtain ⟨⟨hfound, hspelled⟩, hrest⟩ := hitems.cons
      simp only [PendingModule.declaredAll]
      exact List.rel_append (h.declared item hfound hspelled) (h.declaredAll items hrest)

end

/-- Related files declare the same modules at related places. -/
theorem declaredModules {p q : Placed} (h : b.relation.Placed p q)
    (hitems : Item.FoundByName p.file.items) :
    List.Forall₂ b.relation.Pending (p.file.declaredModules p.directory)
      (q.file.declaredModules q.directory) := by
  have hsites : b.Sites p.site q.site := ⟨h.module, h.directory⟩
  rw [SourceFile.declaredModules, SourceFile.declaredModules, h.items]
  exact hsites.declaredAll p.file.items hitems

end BaseDirectory

end MarkerIndex
