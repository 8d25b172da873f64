import MarkerIndex.Proofs.ClosedFiles
import MarkerIndex.Proofs.MarkerWords
/-!
Where the file of a module lies that no attribute places elsewhere. The names from the root of the
crate down to a module are the names of its directory, whether the modules on the way are files or
written in place. So a path can be the file of one module at most.
-/

namespace MarkerIndex

/-- The name of a module, or of a part of its path, that files can be named by. -/
structure NamesFiles (name : String) : Prop where
  component : (Component.normal name).IsName
  notMod : name ≠ "mod"

namespace FilePath

open Component

/-- The path that names lead to, one in the other. -/
def ofNames (names : List String) : FilePath :=
  ofComponents (names.map .normal)

theorem ofNames_concat (names : List String) (name : String) :
    ofNames (names ++ [name]) = ofNames names / name := by
  rw [ofNames, ofComponents, List.map_append, List.foldl_append]
  rfl

/-- A text without slashes is a name if it is none of the names with a meaning. -/
theorem isName_normal {name : String} (hslash : '/' ∉ name.toList)
    (hplain : name.toList ≠ [] ∧ name.toList ≠ ['.'] ∧ name.toList ≠ ['.', '.']) :
    (Component.normal name).IsName := by
  refine ⟨hslash, ?_⟩
  simp [Component.text, ofName?, hplain.1, hplain.2.1, hplain.2.2]

/-- A name of a source file. -/
theorem isName_source {name : String} (h : (Component.normal name).IsName) :
    (Component.normal (name ++ ".rs")).IsName := by
  have hslash : '/' ∉ (name ++ ".rs").toList := by
    have hname : '/' ∉ name.toList := h.1
    simpa [String.toList_append] using hname
  have hlength : 3 ≤ (name ++ ".rs").toList.length := by simp [String.toList_append]
  refine isName_normal hslash ⟨?_, ?_, ?_⟩ <;> intro hsame <;> simp [hsame] at hlength

variable {names : List String}

theorem isName_of_mem_map (h : ∀ name ∈ names, NamesFiles name) :
    ∀ c ∈ names.map Component.normal, c.IsName := by
  intro c member
  obtain ⟨name, hname, rfl⟩ := List.mem_map.mp member
  exact (h name hname).component

theorem components_ofNames (h : ∀ name ∈ names, NamesFiles name) :
    (ofNames names).components = names.map .normal :=
  components_ofComponents ⟨_, isName_of_mem_map h, Or.inl rfl⟩

/-- Names are a normal form. -/
theorem normalComponents_map (names : List String) :
    normalComponents (names.map .normal) = names.map .normal := by
  induction names using List.reverseRecOn with
  | nil => rfl
  | append_singleton names name ih =>
      rw [normalComponents, List.reverse_eq_iff] at ih
      simp only [normalComponents, List.map_append, List.foldl_append, ih,
        List.map_cons, List.map_nil, List.foldl_cons, List.foldl_nil, normalStep]
      simp

theorem ofNames_inj {others : List String} (h : ∀ name ∈ names, NamesFiles name)
    (hothers : ∀ name ∈ others, NamesFiles name) (hsame : ofNames names = ofNames others) :
    names = others := by
  have hcomponents := congrArg components hsame
  rw [components_ofNames h, components_ofNames hothers] at hcomponents
  exact List.map_injective_iff.mpr (fun _ _ => Component.normal.inj) hcomponents

theorem normalize_ofNames (h : ∀ name ∈ names, NamesFiles name) :
    (ofNames names).normalize = ofNames names := by
  rw [normalize, components_ofNames h, normalComponents_map, ofNames]

end FilePath

namespace NamesFiles

variable {name : String}

theorem of_isSegment (h : Grammar.IsSegment name) : NamesFiles name where
  component := by
    have hword := Grammar.isWord_of_isSegment h
    have hdot : '.' ∉ name.toList := hword.not_mem (by decide) (by decide) (by decide)
    have hslash : '/' ∉ name.toList := hword.not_mem (by decide) (by decide) (by decide)
    refine FilePath.isName_normal hslash ⟨hword.toList_ne_nil, ?_, ?_⟩
    all_goals exact fun hsame => hdot (by simp [hsame])
  notMod := by
    rintro rfl
    exact absurd h (by decide)

theorem append_inj {other : String} (h : name ++ ".rs" = other ++ ".rs") : name = other := by
  have hchars := congrArg String.toList h
  rw [String.toList_append, String.toList_append] at hchars
  exact String.toList_inj.mp (List.append_cancel_right hchars)

theorem source (h : NamesFiles name) : NamesFiles (name ++ ".rs") where
  component := FilePath.isName_source h.component
  notMod := by
    intro hsame
    have hlast := congrArg (fun text : String => text.toList.getLast?) hsame
    simp [String.toList_append] at hlast

theorem modSource : NamesFiles "mod.rs" :=
  ⟨by decide, by decide⟩

end NamesFiles

namespace PendingModule

/-- The files that may hold a module, by its name and the names above it. -/
def candidatesAt (above : List String) (name : String) : List (FilePath × FilePath) :=
  let own := FilePath.ofNames (above ++ [name])
  [(FilePath.ofNames (above ++ [name ++ ".rs"]), own),
    (FilePath.ofNames (above ++ [name, "mod.rs"]), own)]

/-- The names from the root of the crate down to a place are those of its directory. -/
structure Site.Follows (site : Site) (names : List String) : Prop where
  words : ∀ name ∈ names, NamesFiles name
  module : site.module = ItemPath.crateRoot.extend names
  directory : site.directory = FilePath.ofNames names

/-- The names from the root of the crate down to a module are those of its files. -/
structure Follows (next : PendingModule) (above : List String) (name : String) : Prop where
  words : ∀ word ∈ above ++ [name], NamesFiles word
  module : next.module = ItemPath.crateRoot.extend (above ++ [name])
  candidates : next.candidates = candidatesAt above name

section

variable {site : Site} {names above : List String} {name : String}

theorem Site.Follows.candidatesOf (h : site.Follows names) (hname : NamesFiles name) :
    PendingModule.candidatesOf site name none = candidatesAt names name := by
  have hown : ∀ w ∈ names ++ [name], NamesFiles w :=
    List.forall_mem_append.mpr ⟨h.words, by simpa using hname⟩
  have hsource : ∀ w ∈ names ++ [name ++ ".rs"], NamesFiles w :=
    List.forall_mem_append.mpr ⟨h.words, by simpa using hname.source⟩
  have hmod : names ++ [name, "mod.rs"] = (names ++ [name]) ++ ["mod.rs"] := by simp
  rw [candidatesAt, hmod, FilePath.ofNames_concat (names ++ [name]),
    ← FilePath.normalize_ofNames hown,
    ← FilePath.normalize_ofNames hsource, FilePath.ofNames_concat names,
    FilePath.ofNames_concat names, PendingModule.candidatesOf, h.directory]

/-- The names of the files that may hold a module. -/
theorem namesFiles_candidates (hwords : ∀ w ∈ above ++ [name], NamesFiles w) :
    (∀ w ∈ above ++ [name ++ ".rs"], NamesFiles w) ∧
      ∀ w ∈ above ++ [name, "mod.rs"], NamesFiles w := by
  obtain ⟨habove, hname⟩ := List.forall_mem_append.mp hwords
  have hname : NamesFiles name := by simpa using hname
  constructor
  · exact List.forall_mem_append.mpr ⟨habove, by simpa using hname.source⟩
  · exact List.forall_mem_append.mpr ⟨habove, by simpa using ⟨hname, .modSource⟩⟩

/-- A path is a candidate for one module at most. -/
theorem candidatesAt_inj {above' : List String} {name' : String} {path : FilePath}
    (hwords : ∀ w ∈ above ++ [name], NamesFiles w) (hwords' : ∀ w ∈ above' ++ [name'], NamesFiles w)
    (h : path ∈ (candidatesAt above name).map (·.1))
    (h' : path ∈ (candidatesAt above' name').map (·.1)) : above = above' ∧ name = name' := by
  obtain ⟨hsource, hmod⟩ := namesFiles_candidates hwords
  obtain ⟨hsource', hmod'⟩ := namesFiles_candidates hwords'
  -- a module whose name were `mod` is the one that could take the file of another
  have hmixed : ∀ {above above' : List String} {name name' : String},
      above ++ [name ++ ".rs"] = above' ++ [name', "mod.rs"] → NamesFiles name → False := by
    intro above above' name name' hsame hname
    have hlast : above ++ [name ++ ".rs"] = (above' ++ [name']) ++ ["mod.rs"] := by
      simpa using hsame
    obtain ⟨-, hfile⟩ := List.append_inj' hlast rfl
    exact hname.notMod (NamesFiles.append_inj (List.cons.inj hfile).1)
  simp only [candidatesAt, List.map_cons, List.map_nil, List.mem_cons, List.not_mem_nil,
    or_false] at h h'
  rcases h with rfl | rfl <;> rcases h' with h' | h'
  · obtain ⟨habove, hfile⟩ := List.append_inj' (FilePath.ofNames_inj hsource hsource' h') rfl
    exact ⟨habove, NamesFiles.append_inj (List.cons.inj hfile).1⟩
  · have hsame := FilePath.ofNames_inj hsource hmod' h'
    exact (hmixed hsame (hwords name (by simp))).elim
  · have hsame := FilePath.ofNames_inj hmod hsource' h'
    exact (hmixed hsame.symm (hwords' name' (by simp))).elim
  · obtain ⟨habove, hfile⟩ := List.append_inj' (FilePath.ofNames_inj hmod hmod' h') rfl
    exact ⟨habove, (List.cons.inj hfile).1⟩

/-- Two declarations that may mean one file are the same. -/
theorem Follows.eq_of_path {next next' : PendingModule} {above' : List String} {name' : String}
    (h : next.Follows above name) (h' : next'.Follows above' name') {path : FilePath}
    (hpath : path ∈ next.candidates.map (·.1)) (hpath' : path ∈ next'.candidates.map (·.1)) :
    next = next' := by
  rw [h.candidates] at hpath
  rw [h'.candidates] at hpath'
  obtain ⟨rfl, rfl⟩ := candidatesAt_inj h.words h'.words hpath hpath'
  obtain ⟨hmodule, hcandidates⟩ := And.intro (h.module.trans h'.module.symm)
    (h.candidates.trans h'.candidates.symm)
  cases next
  cases next'
  exact congr (congrArg _ hmodule) hcandidates

/-- The directory of a declared module, by whichever file. -/
theorem Follows.directory {next : PendingModule} (h : next.Follows above name)
    {candidate : FilePath × FilePath} (hcandidate : candidate ∈ next.candidates) :
    candidate.2 = FilePath.ofNames (above ++ [name]) := by
  rw [h.candidates] at hcandidate
  rcases List.mem_cons.mp hcandidate with rfl | hcandidate
  · rfl
  · obtain rfl := List.mem_singleton.mp hcandidate
    rfl

end

end PendingModule

mutual

/-- No attribute says where the file lies of a module that the item is or holds. -/
def Item.findsModulesByName : Item → Bool
  | .submodule _ attributes (some nested) =>
    (attributes.findSome? Attribute.pathValue?).isNone && Item.findModulesByName nested
  | .submodule _ attributes none => (attributes.findSome? Attribute.pathValue?).isNone
  | _ => true

def Item.findModulesByName : List Item → Bool
  | [] => true
  | item :: items => item.findsModulesByName && Item.findModulesByName items

end

namespace Item

theorem findModulesByName_iff {items : List Item} :
    findModulesByName items = true ↔ ∀ item ∈ items, item.findsModulesByName = true := by
  induction items with
  | nil => simp [findModulesByName]
  | cons item items ih => rw [findModulesByName, Bool.and_eq_true, ih, List.forall_mem_cons]

theorem findsModulesByName_submodule_iff {name : String} {attributes : List Attribute}
    {content : Option (List Item)} : (submodule name attributes content).findsModulesByName = true ↔
      attributes.findSome? Attribute.pathValue? = none ∧
        ∀ nested, content = some nested → findModulesByName nested = true := by
  cases content <;> simp [findsModulesByName]

end Item

/-- No attribute of the crate says where the file of a module lies. -/
def Corpus.FindsModulesByName (c : Corpus) : Prop :=
  ∀ f ∈ c.files, Item.findModulesByName f.items = true

instance (c : Corpus) : Decidable c.FindsModulesByName :=
  inferInstanceAs (Decidable (∀ f ∈ c.files, Item.findModulesByName f.items = true))

/-- The files of all modules that the items declare lie where the names of the modules say. -/
structure Item.FollowNames (items : List Item) : Prop where
  plain : Item.nameModulesPlainly items = true
  found : Item.findModulesByName items = true
  spelled : Item.AllSpelled items

namespace Item

theorem FollowNames.of_submodule {items : List Item} (h : FollowNames items) {name : String}
    {attributes : List Attribute} {content : Option (List Item)}
    (member : .submodule name attributes content ∈ items) :
    Text.unraw name = name ∧ NamesFiles name ∧ attributes.findSome? Attribute.pathValue? = none ∧
      ∀ nested, content = some nested → FollowNames nested := by
  obtain ⟨hname, hplain⟩ :=
    namesModulesPlainly_submodule_iff.mp (nameModulesPlainly_iff.mp h.plain _ member)
  obtain ⟨hpath, hfound⟩ :=
    findsModulesByName_submodule_iff.mp (findModulesByName_iff.mp h.found _ member)
  obtain ⟨hsegment, hspelled⟩ := spelled_submodule_iff.mp (allSpelled_iff.mp h.spelled _ member)
  exact ⟨hname, .of_isSegment hsegment, hpath, fun nested hcontent =>
    ⟨hplain nested hcontent, hfound nested hcontent, hspelled nested hcontent⟩⟩

end Item

namespace PendingModule

/-- The directory of a module that is written in place is that of a module in a file. -/
theorem Site.Follows.inside {site : Site} {names : List String} (h : site.Follows names)
    {name : String}
    (hname : NamesFiles name) (hplain : Text.unraw name = name) {attributes : List Attribute}
    (hfound : attributes.findSome? Attribute.pathValue? = none) :
    (site.inside name attributes).Follows (names ++ [name]) where
  words := List.forall_mem_append.mpr ⟨h.words, by simpa using hname⟩
  module := by
    rw [Site.inside, hplain, h.module, ItemPath.extend_concat]
  directory := by
    simp only [Site.inside, hplain, hfound, h.directory, Option.getD_none, FilePath.ofNames_concat]

/-- A module that is looked for by its name follows it. -/
theorem Site.Follows.next {site : Site} {names : List String} (h : site.Follows names)
    {name : String}
    (hname : NamesFiles name) :
    PendingModule.Follows ⟨site.module.join name, PendingModule.candidatesOf site name none⟩
      names name where
  words := List.forall_mem_append.mpr ⟨h.words, by simpa using hname⟩
  module := by rw [h.module, ItemPath.extend_concat]
  candidates := h.candidatesOf hname

theorem Declares.follows {site : Site} {items : List Item} {next : PendingModule}
    (h : Declares site items next) {names : List String} (hsite : site.Follows names)
    (hitems : Item.FollowNames items) : ∃ above name, next.Follows above name := by
  induction h generalizing names with
  | @here site _ rawName _ member =>
      obtain ⟨hplain, hname, hfound, -⟩ := hitems.of_submodule member
      rw [hplain, hfound]
      exact ⟨names, rawName, hsite.next hname⟩
  | inside member _ ih =>
      obtain ⟨hplain, hname, hfound, hnested⟩ := hitems.of_submodule member
      exact ih (hsite.inside hname hplain hfound) (hnested _ rfl)

/-- Items declare the same modules in a file as in place. -/
theorem Declares.of_follows {site site' : Site} {items : List Item} {next : PendingModule}
    (h : Declares site items next) {names : List String} (hsite : site.Follows names)
    (hsite' : site'.Follows names)
    (hitems : Item.FollowNames items) : Declares site' items next := by
  induction h generalizing site' names with
  | here member =>
      obtain ⟨hplain, hname, hfound, -⟩ := hitems.of_submodule member
      have hhere := @Declares.here site' _ _ _ member
      rw [hplain, hfound, hsite'.module, hsite'.candidatesOf hname] at hhere
      rwa [hplain, hfound, hsite.module, hsite.candidatesOf hname]
  | inside member _ ih =>
      obtain ⟨hplain, hname, hfound, hnested⟩ := hitems.of_submodule member
      exact .inside member
        (ih (hsite.inside hname hplain hfound) (hsite'.inside hname hplain hfound)
        (hnested _ rfl))

end PendingModule

namespace Placed

/-- Where the modules of a file are declared. -/
def site (p : Placed) : PendingModule.Site :=
  ⟨p.file.module, p.file.path.directory, p.directory, false⟩

theorem FromRoot.mem {text? : FilePath → Option String} {placed : List Placed} {p : Placed}
    (h : p.FromRoot text? placed) : p ∈ placed := by
  cases h <;> assumption

end Placed

namespace IsModuleClosure

variable {text? : FilePath → Option String} {parse : String → Except Grammar.Failure (List Item)}
  {root : FilePath} {placed : List Placed}

/-- Every file of a crate lies where the names of its module say. -/
theorem follows (closure : IsModuleClosure text? parse root placed) (hroot : root.directory = ⟨""⟩)
    (hitems : ∀ p ∈ placed, Item.FollowNames p.file.items) {p : Placed} (hp : p ∈ placed) :
    ∃ names, p.site.Follows names := by
  have hfrom := closure.sound p hp
  clear hp
  induction hfrom with
  | @root p member hisRoot hmodule =>
      obtain ⟨-, hdirectory⟩ := closure.of_isRoot member hisRoot
      refine ⟨[], by simp, ?_, ?_⟩
      · simpa [Placed.site] using hmodule
      · rw [Placed.site, hdirectory, hroot]
        rfl
  | @declared q p next hfrom hdeclares hfile hmodule _ member ih =>
      obtain ⟨names, hsite⟩ := ih
      obtain ⟨above, name, hnext⟩ := hdeclares.follows hsite (hitems q hfrom.mem)
      refine ⟨above ++ [name], hnext.words, hmodule.trans hnext.module, ?_⟩
      exact hnext.directory (List.mem_of_find?_eq_some hfile)

/-- Where all files lie where names say, all declarations that may mean a file say the same of it.
-/
theorem coherent (closure : IsModuleClosure text? parse root placed)
    (hfollows : ∀ p ∈ placed, ∀ next, p.Declares next → ∃ above name, next.Follows above name) :
    Coherent text? placed := by
  intro p hp next hdeclares candidate hcandidate q hq hpath
  have hmember : candidate ∈ next.candidates := List.mem_of_find?_eq_some hcandidate
  obtain ⟨above, name, hnext⟩ := hfollows p hp next hdeclares
  cases closure.sound q hq with
  | root _ hroot _ => exact Or.inl hroot
  | @declared r _ other hfrom hother hfile hmodule _ _ =>
      have hfound : (q.file.path, q.directory) ∈ other.candidates := List.mem_of_find?_eq_some hfile
      obtain ⟨_, _, hfollowsOther⟩ := hfollows r hfrom.mem other hother
      obtain rfl : next = other := by
        apply hnext.eq_of_path hfollowsOther (List.mem_map_of_mem hmember)
        rw [← hpath]
        exact List.mem_map_of_mem (f := Prod.fst) hfound
      exact Or.inr ⟨hmodule, (hnext.directory hfound).trans (hnext.directory hmember).symm⟩

end IsModuleClosure

end MarkerIndex
