import MarkerIndex.Proofs.NormalFile
import MarkerIndex.Proofs.Progress
/-!
Whether a crate is found where nothing is wrong with its sources. A loading meets no problem where
every file that it may come to can be read and is accepted, and modules that are found by their
names lie below the directory of the root. So all that can fail is the walk through that directory;
it is told by what stands in front of the name of the root, and where nothing stands there nothing
can be walked through.
-/

namespace MarkerIndex

open FilePath

namespace Loader

variable {l : Loader}

/-- A search fails only where a candidate cannot be read. -/
theorem exists_of_find_error {visited : List FilePath} {candidates : List (FilePath × FilePath)}
    {error : Error} (h : l.find visited candidates = .error error) :
    ∃ candidate ∈ candidates, l.read candidate.1 = .error error := by
  fun_induction find l visited candidates with
  | case3 path directory others hfresh problem hread =>
      obtain rfl := Except.error.inj h
      exact ⟨_, List.mem_cons_self, hread⟩
  | case5 path directory others hfresh hread ih =>
      obtain ⟨candidate, member, hcandidate⟩ := ih h
      exact ⟨candidate, List.mem_cons_of_mem _ member, hcandidate⟩
  | _ => simp at h

/-- A set of declared modules that is closed under loading: whatever their candidates hold can be
read and is accepted, and declares such modules again. -/
def Closed (l : Loader) (good : PendingModule → Prop) : Prop :=
  ∀ next, good next → ∀ candidate ∈ next.candidates, ∃ found, l.read candidate.1 = .ok found ∧
    ∀ text, found = some text → ∃ items, l.parse text = .ok items ∧
      ∀ m ∈ SourceFile.declaredModules ⟨candidate.1, next.module, items, false⟩ candidate.2, good m

/-- What is found for such a module is accepted. -/
theorem Closed.of_find {good : PendingModule → Prop} (h : l.Closed good) {visited : List FilePath}
    {next : PendingModule} {found : FoundFile} (hnext : good next)
    (hfind : l.find visited next.candidates = .ok (some found)) :
    ∃ items, l.parse found.text = .ok items ∧
      ∀ m ∈ SourceFile.declaredModules ⟨found.path, next.module, items, false⟩ found.directory,
      good m := by
  obtain ⟨contents, hread, haccepted⟩ :=
    h next hnext _ (List.mem_of_find?_eq_some (find?_of_find hfind))
  have htext := (fresh_of_find hfind).1
  rw [text?, hread] at htext
  exact haccepted _ htext

/-- A run that begins with such modules meets no problem but its limit. By induction on the run;
what is pending stays in the set. -/
theorem Closed.problem_run {good : PendingModule → Prop} (h : l.Closed good) (limit : Nat)
    (visited : List FilePath) (pending : List PendingModule)
    (hpending : ∀ next ∈ pending, good next)
    (hlimit : ∀ file, (l.run limit visited pending).problem ≠ some (.beyondLimit file)) :
    (l.run limit visited pending).problem = none := by
  fun_induction run l limit visited pending with
  | case1 => rfl
  | case2 limit visited next pending error herror =>
      obtain ⟨candidate, member, hcandidate⟩ := exists_of_find_error herror
      obtain ⟨found, hread, -⟩ := h next (hpending next List.mem_cons_self) candidate member
      rw [hcandidate] at hread
      cases hread
  | case3 limit visited next pending hnone ih =>
      exact ih (fun m member => hpending m (List.mem_cons_of_mem _ member)) hlimit
  | case4 => exact absurd rfl (hlimit _)
  | case5 visited next pending found hfind limit failure hfailure =>
      obtain ⟨items, hitems, -⟩ := h.of_find (hpending next List.mem_cons_self) hfind
      rw [hfailure] at hitems
      cases hitems
  | case6 visited next pending found hfind limit items hitems file declared later ih =>
      obtain ⟨items', hitems', hdeclared⟩ := h.of_find (hpending next List.mem_cons_self) hfind
      obtain rfl : items = items' := Except.ok.inj (hitems.symm.trans hitems')
      refine ih (fun m member => ?_) hlimit
      rcases List.mem_append.mp member with hnew | hold
      · exact hdeclared m (List.mem_reverse.mp hnew)
      · exact hpending m (List.mem_cons_of_mem _ hold)

end Loader

/-- A loading that gets through makes up a crate of its files. -/
theorem Loading.exists_corpus {l : Loading} (h : l.problem = none) :
    ∃ c, l.corpus = .ok c ∧ ∀ f, f ∈ c.files ↔ f ∈ l.loaded := by
  obtain ⟨c, hc⟩ : ∃ c, l.corpus = .ok c := by simp [corpus, h]
  exact ⟨c, hc, fun _ => mem_files_of_corpus hc⟩

/-- The place of a source file, whose name is more than the ending. -/
def IsSourcePlace (place : Place) : Prop :=
  ∃ above stem, stem ≠ "" ∧ place = above ++ [stem ++ ".rs"]

namespace PendingModule

/-- Modules that are found by their names. -/
theorem Declares.byName {site : Site} {items : List Item} {next : PendingModule}
    (h : Declares site items next)
    (hitems : Item.FoundByName items) : DeclaresByName site items next := by
  induction h with
  | here member =>
      obtain ⟨-, hpath, -⟩ := hitems.of_submodule member
      rw [hpath]
      exact .here member hpath
  | inside member _ ih =>
      obtain ⟨-, hpath, hnested⟩ := hitems.of_submodule member
      exact .inside member hpath (ih (hnested _ rfl))

/-- The file of a module that is found by its name is a source file. -/
theorem DeclaresByName.isSourcePlace (d : Disk) {site : Site} {items : List Item}
    {next : PendingModule}
    (h : DeclaresByName site items next) (hitems : Item.AllSpelled items)
    {candidate : FilePath × FilePath} (member : candidate ∈ next.candidates) :
    IsSourcePlace (d.spelledPlace candidate.1) := by
  induction h with
  | @here site items rawName attributes hsubmodule _ =>
      obtain ⟨hname, -⟩ := hitems.of_submodule hsubmodule
      have hne : Text.unraw rawName ≠ "" := by
        rintro hempty
        rw [hempty] at hname
        exact absurd hname (by decide)
      simp only [candidatesOf, List.mem_cons, List.not_mem_nil, or_false] at member
      rcases member with rfl | rfl
      · rw [Disk.spelledPlace_normalize, Disk.spelledPlace_join d _ (isName_source hname)]
        exact ⟨_, _, hne, rfl⟩
      · rw [Disk.spelledPlace_join d _ (by decide)]
        exact ⟨_, "mod", by decide, rfl⟩
  | inside hsubmodule _ _ ih => exact ih ((hitems.of_submodule hsubmodule).2 _ rfl) member

end PendingModule

namespace FileTree

variable {t : FileTree} {base place : Place}

/-- At the place lies a text that the grammar takes, and no attribute in it says where a module
lies. -/
def Accepts (t : FileTree) (place : Place) : Prop :=
  ∃ text items, t.text? place = some text ∧ Grammar.parseFile text = .ok items ∧
    Item.findModulesByName items = true

/-- All source files below a directory are accepted. -/
def AcceptsBelow (t : FileTree) (base : Place) : Prop :=
  ∀ place, base <+: place → IsSourcePlace place → t.isFile place = true → t.Accepts place

/-- A tree with accepted files only. -/
theorem accepts_of_entries (hfiles : ∀ entry ∈ t.entries, t.isFile entry.1 = true →
    t.Accepts entry.1)
    (hfile : t.isFile place = true) : t.Accepts place := by
  cases hnode : t.node? place with
  | none => simp [isFile, contents?, hnode] at hfile
  | some node =>
      have hne : place ≠ [] := by
        rintro rfl
        cases hfile
      exact hfiles _ (mem_entries_of_node? hne hnode) hfile

theorem AcceptsBelow.mono {inner : Place} (h : t.AcceptsBelow base) (hinner : base <+: inner) :
    t.AcceptsBelow inner :=
  fun place hplace => h place (hinner.trans hplace)

end FileTree

namespace Disk

variable {d : Disk} {p : FilePath} {place base : Place}

theorem read_of_text? {text : String} (hplace : d.locate p = .ok place)
    (htext : d.tree.text? place = some text) : d.read p = .ok text := by
  obtain ⟨contents, hcontents, htext⟩ := Option.bind_eq_some_iff.mp htext
  have hread := readText_of_contentsAt? ((contentsAt?_of_locate hplace).trans hcontents)
  rw [read, hread, htext]
  rfl

/-- A file that can be read is loaded, or is passed over. -/
theorem moduleText_of_read {text : String} (h : d.read p = .ok text) (sources : SourceSet) :
    d.moduleText sources p = .ok none ∨ d.moduleText sources p = .ok (some text) := by
  rw [moduleText, h]
  exact ite_eq_or_eq _ _ _

/-- The files that a module may be loaded from are source files below a directory, and so are those
of the modules that are declared in them. -/
def LiesWithin (d : Disk) (base : Place) (next : PendingModule) : Prop :=
  ∀ candidate ∈ next.candidates, base <+: d.spelledPlace candidate.1 ∧
    IsSourcePlace (d.spelledPlace candidate.1) ∧
    (d.isFile candidate.1 = true → base <+: d.spelledPlace candidate.2)

theorem liesWithin_of_declares {site : PendingModule.Site} {items : List Item}
    {next : PendingModule} (h : PendingModule.Declares site items next)
    (hitems : Item.FoundByName items) (hsite : base <+: d.spelledPlace site.directory) :
    d.LiesWithin base next := by
  intro candidate member
  have hname := h.byName hitems
  have hbelow : base <+: (d.spelledPlace candidate.1).dropLast :=
    hsite.trans (place_of_declaresByName d hname hitems.spelled member)
  refine ⟨hbelow.trans (List.dropLast_prefix _), hname.isSourcePlace d hitems.spelled member,
    fun hfile => ?_⟩
  exact hbelow.trans (place_of_candidate h hitems.spelled member hfile)

theorem declaredModules_liesWithin {text : String} {items : List Item}
    (hparse : Grammar.parseFile text = .ok items) (hfound : Item.findModulesByName items = true)
    (f : SourceFile) (hitems : f.items = items) {directory : FilePath}
    (hdirectory : base <+: d.spelledPlace directory) :
    ∀ m ∈ f.declaredModules directory, d.LiesWithin base m := by
  intro m member
  rw [SourceFile.declaredModules, hitems, PendingModule.mem_declaredAll_iff] at member
  exact liesWithin_of_declares member ⟨hfound, Grammar.allSpelled_of_parseFile hparse⟩ hdirectory

/-- Where all source files below a directory are accepted, nothing that may be loaded from there
fails. -/
theorem closed_liesWithin (hbase : d.tree.AcceptsBelow base)
    (sources : SourceSet) :
    (d.loader sources).Closed (d.LiesWithin base) := by
  intro next hnext candidate member
  obtain ⟨hbelow, hsource, hdirectory⟩ := hnext candidate member
  have hread : (d.loader sources).read candidate.1 = d.moduleText sources candidate.1 := rfl
  rw [hread]
  by_cases hfile : d.isFile candidate.1 = true
  · obtain ⟨hplace, -⟩ := locate_of_isFile hfile
    obtain ⟨text, items, htext, hparse, hfound⟩ :=
      hbase _ hbelow hsource ((isFile_of_locate hplace).symm.trans hfile)
    have hdeclared := declaredModules_liesWithin hparse hfound
      ⟨candidate.1, next.module, items, false⟩ rfl (hdirectory hfile)
    -- a file below the directory of the root is passed over if the walk did not list it
    rcases moduleText_of_read (read_of_text? hplace htext) sources with hnone | htext
    · exact ⟨none, hnone, by simp⟩
    · refine ⟨some text, htext, ?_⟩
      rintro _ ⟨⟩
      exact ⟨items, hparse, hdeclared⟩
  · exact ⟨none, moduleText_of_not_isFile hfile sources, by simp⟩

/-- The root of a crate is accepted, and so are all source files below the project, and below the
directory of the root if that lies elsewhere. -/
structure AcceptsSources (d : Disk) (project located : FilePath) : Prop where
  root : d.tree.Accepts (d.spelledPlace located)
  inside : ∀ base, d.locate project = .ok base → d.tree.AcceptsBelow base
  elsewhere : (∀ base, d.locate project = .ok base → ¬ base <+: (d.spelledPlace located).dropLast) →
    d.tree.AcceptsBelow (d.spelledPlace located).dropLast

variable {project located : FilePath} {settings : Settings}

theorem AcceptsSources.besideRoot (h : d.AcceptsSources project located) :
    d.tree.AcceptsBelow (d.spelledPlace located).dropLast := by
  by_cases helsewhere :
      ∀ base, d.locate project = .ok base → ¬ base <+: (d.spelledPlace located).dropLast
  · exact h.elsewhere helsewhere
  · push Not at helsewhere
    obtain ⟨base, hbase, hbelow⟩ := helsewhere
    exact (h.inside base hbase).mono hbelow

/-- Where the root of a project is looked for, in this order. -/
def rootPlaces (project : FilePath) : Option FilePath → List FilePath
  | some named => [project.join named]
  | none => rootNames.map (project / ·)

theorem crateRoot_of_find? {named : Option FilePath}
    (h : (rootPlaces project named).find? d.isFile = some located) :
    d.crateRoot project named = .ok located := by
  cases named with
  | none => rw [crateRoot, ← rootPlaces, h]
  | some named =>
      rw [rootPlaces, List.find?_singleton, Option.ite_none_right_eq_some] at h
      obtain ⟨hfile, hsame⟩ := h
      obtain rfl := Option.some.inj hsame
      exact if_pos hfile

/-- A loading that starts from an accepted root gets through. -/
theorem load_of_accepts {sources : SourceSet}
    (hfile : d.isFile sources.root = true)
    (hnormal : sources.root.IsNormal) (hroot : d.tree.Accepts (d.spelledPlace sources.root))
    (hbelow : d.tree.AcceptsBelow (d.spelledPlace sources.root).dropLast) :
    (d.load sources).problem = none ∧
      ∃ items, ⟨sources.root, .crateRoot, items, true⟩ ∈ (d.load sources).loaded := by
  obtain ⟨text, items, htext, hparse, hfound⟩ := hroot
  have hread : d.read sources.root = .ok text := read_of_text? (locate_of_isFile hfile).1 htext
  have hloader : (d.loader sources).parse text = .ok items := hparse
  have hlimit := d.load_within_limit sources
  rw [load, hread] at hlimit ⊢
  simp only [Loader.load, hloader] at hlimit ⊢
  have hdirectory :
      (d.spelledPlace sources.root).dropLast <+: d.spelledPlace sources.root.directory := by
    rw [spelledPlace_directory hnormal hfile]
  have hdeclared := declaredModules_liesWithin hparse hfound
    ⟨sources.root, .crateRoot, items, true⟩ rfl hdirectory
  refine ⟨(closed_liesWithin hbelow sources).problem_run _ _ _ ?_ hlimit, items, List.mem_cons_self⟩
  exact fun m member => hdeclared m (List.mem_reverse.mp member)

/-- Below a directory that is told by some text source files are listed. -/
theorem exists_sourceFiles (hfile : d.isFile p = true)
    (hne : p.normalize.directory.text ≠ "") (ignore : List String) :
    ∃ candidates, d.sourceFiles p.normalize.directory ignore = .ok candidates := by
  obtain ⟨hplace, hnode⟩ := locate_directory_normalize hfile hne
  have hexists : d.tree.exists? (d.spelledPlace p).dropLast = true := by
    rw [FileTree.exists?, hnode]
    rfl
  rw [sourceFiles, hplace]
  exact ⟨_, if_pos hexists⟩

theorem sourceFiles_of_empty (hempty : p.text = "") (ignore : List String) :
    d.sourceFiles p ignore = .error (.walk ⟨""⟩ .notFound) := by
  obtain ⟨text⟩ := p
  obtain rfl : text = "" := hempty
  rfl

/-- Nothing stands in front of the last name of a normal form just when it is a single name. -/
theorem directory_normalize_empty_iff (hfile : d.isFile p = true) :
    p.normalize.directory.text = "" ↔ ∃ name, p.normalize.components = [.normal name] := by
  obtain ⟨lead, above, name, hlead, hnames, hnormal, -, -⟩ := exists_spelling hfile
  rw [hnormal, directory_spelled_concat hlead.isOutset hnames,
    components_spelled hlead.isOutset hnames]
  constructor
  · intro hempty
    have hnone : (spelled lead above).components = [] := by
      rw [components, hempty]
      decide
    rw [components_spelled hlead.isOutset hnames.of_append.1, List.append_eq_nil_iff,
      List.map_eq_nil_iff]
      at hnone
    obtain ⟨rfl, rfl⟩ := hnone
    exact ⟨name, rfl⟩
  · rintro ⟨last, hsingle⟩
    rw [List.map_append, ← List.append_assoc] at hsingle
    have hnone : lead ++ above.map Component.normal = [] :=
      (List.append_inj' (hsingle.trans (List.nil_append _).symm) rfl).1
    rw [List.append_eq_nil_iff, List.map_eq_nil_iff] at hnone
    obtain ⟨rfl, rfl⟩ := hnone
    rfl

/-- Nothing is found from a root whose directory no text tells. -/
theorem discover_of_directory_empty
    (hlocated : d.crateRoot project settings.crateRoot = .ok located)
    (hempty : located.normalize.directory.text = "") :
    (d.discover project settings).result = .error (.walk ⟨""⟩ .notFound) := by
  have hsources : d.sourceSet project settings = .error (.walk ⟨""⟩ .notFound) := by
    rw [sourceSet, hlocated]
    simp only [sourceFiles_of_empty hempty]
    rfl
  rw [discover, hsources]

/-- From any other root a crate is found if its sources are accepted. -/
theorem exists_discover (hfile : d.isFile located = true)
    (hlocated : d.crateRoot project settings.crateRoot = .ok located)
    (haccepts : d.AcceptsSources project located) (hne : located.normalize.directory.text ≠ "") :
    ∃ c, (d.discover project settings).result = .ok c ∧
      ∃ f ∈ c.files, f.path = located.normalize ∧ f.module = .crateRoot ∧ f.isRoot = true := by
  obtain ⟨sources, hsources, hroot⟩ :
      ∃ sources, d.sourceSet project settings = .ok sources ∧ sources.root = located.normalize := by
    obtain ⟨candidates, hcandidates⟩ := exists_sourceFiles hfile hne settings.ignore
    exact ⟨_, sourceSet_eq hlocated rfl rfl hcandidates, rfl⟩
  have hnormal : d.isFile sources.root = true := by
    rwa [hroot, isFile_of_locate (locate_normalize hfile),
      ← isFile_of_locate (locate_of_isFile hfile).1]
  have hplace : d.spelledPlace sources.root = d.spelledPlace located := by
    rw [hroot, spelledPlace_normalize]
  obtain ⟨hthrough, items, member⟩ := load_of_accepts hnormal (isNormal_root hsources)
    (hplace ▸ haccepts.root) (hplace ▸ haccepts.besideRoot)
  obtain ⟨c, hcorpus, hfiles⟩ := Loading.exists_corpus hthrough
  rw [result_discover hsources]
  exact ⟨c, hcorpus, _, (hfiles _).mpr member, hroot, rfl, rfl⟩

/-- Where the root of a project exists and its sources are accepted, its crate is found with the
root in it, unless the path of the root comes down to a single name. Then the walk through nothing
fails. -/
theorem discover_finds_root
    (hfound : (rootPlaces project settings.crateRoot).find? d.isFile = some located)
    (haccepts : d.AcceptsSources project located) :
    ((∃ c, (d.discover project settings).result = .ok c ∧
        ∃ f ∈ c.files, f.path = located.normalize ∧ f.module = .crateRoot ∧ f.isRoot = true) ↔
      ¬ ∃ name, located.normalize.components = [.normal name]) ∧
    ((∃ name, located.normalize.components = [.normal name]) →
      (d.discover project settings).result = .error (.walk ⟨""⟩ .notFound)) := by
  have hfile := List.find?_some hfound
  have hlocated := crateRoot_of_find? hfound
  rw [← directory_normalize_empty_iff hfile]
  refine ⟨⟨?_, exists_discover hfile hlocated haccepts⟩, discover_of_directory_empty hlocated⟩
  rintro ⟨c, hcorpus, -⟩ hempty
  rw [discover_of_directory_empty hlocated hempty] at hcorpus
  cases hcorpus

theorem acceptsSources_of_entries
    (hfiles : ∀ entry ∈ d.tree.entries, d.tree.isFile entry.1 = true → d.tree.Accepts entry.1)
    (hfile : d.isFile located = true) : d.AcceptsSources project located where
  root := FileTree.accepts_of_entries hfiles
    ((isFile_of_locate (locate_of_isFile hfile).1).symm.trans hfile)
  inside _ _ _ _ _ := FileTree.accepts_of_entries hfiles
  elsewhere _ _ _ _ := FileTree.accepts_of_entries hfiles

theorem accepts_beside : ∀ entry ∈ beside.tree.entries, beside.tree.isFile entry.1 = true →
    beside.tree.Accepts entry.1 := by
  have hempty : Grammar.parseFile "" = .ok [] := Item.parse_of_sameAll (by decide +kernel)
  have hroot : Grammar.parseFile "mod a;\nmod b;\n" = .ok besideItems :=
    Item.parse_of_sameAll (by decide +kernel)
  have hfiles : ∀ entry ∈ beside.tree.entries, beside.tree.isFile entry.1 = true →
      beside.tree.text? entry.1 = some "" ∨
      beside.tree.text? entry.1 = some "mod a;\nmod b;\n" := by
    decide +kernel
  intro entry hentry hfile
  rcases hfiles entry hentry hfile with htext | htext
  · exact ⟨_, _, htext, hempty, rfl⟩
  · exact ⟨_, _, htext, hroot, rfl⟩

/-- The library with files beside its root is found. -/
theorem discover_finds_root_beside :
    (rootPlaces ⟨"."⟩ besideSettings.crateRoot).find? beside.isFile = some ⟨"./src/lib.rs"⟩ ∧
    beside.AcceptsSources ⟨"."⟩ ⟨"./src/lib.rs"⟩ ∧
    ∃ c, (beside.discover ⟨"."⟩ besideSettings).result = .ok c ∧
      ∃ f ∈ c.files, f.path = ⟨"src/lib.rs"⟩ ∧ f.module = .crateRoot ∧ f.isRoot = true := by
  have hfound : (rootPlaces ⟨"."⟩ besideSettings.crateRoot).find? beside.isFile =
      some ⟨"./src/lib.rs"⟩ := by
    decide +kernel
  have haccepts : beside.AcceptsSources ⟨"."⟩ ⟨"./src/lib.rs"⟩ :=
    acceptsSources_of_entries accepts_beside (List.find?_some hfound)
  have hnormal : FilePath.normalize ⟨"./src/lib.rs"⟩ = ⟨"src/lib.rs"⟩ := by decide +kernel
  have hcomponents : FilePath.components ⟨"src/lib.rs"⟩ = [.normal "src", .normal "lib.rs"] := by
    decide +kernel
  have hcrate := (discover_finds_root hfound haccepts).1.mpr (by simp [hnormal, hcomponents])
  rw [hnormal] at hcrate
  exact ⟨hfound, haccepts, hcrate⟩

/-- A library whose root lies directly in the project. -/
def flat : Disk where
  tree := .ofTexts [(["x", "lib.rs"], "")]
  here := ["x"]

def flatSettings : Settings :=
  { Settings.standard with crateRoot := some ⟨"lib.rs"⟩ }

/-- Its sources are accepted, and it is not found. -/
theorem discover_misses_root_flat :
    (rootPlaces ⟨"."⟩ flatSettings.crateRoot).find? flat.isFile = some ⟨"./lib.rs"⟩ ∧
    flat.AcceptsSources ⟨"."⟩ ⟨"./lib.rs"⟩ ∧
    (flat.discover ⟨"."⟩ flatSettings).result = .error (.walk ⟨""⟩ .notFound) := by
  have hempty : Grammar.parseFile "" = .ok [] := Item.parse_of_sameAll (by decide +kernel)
  have hfiles : ∀ entry ∈ flat.tree.entries, flat.tree.isFile entry.1 = true →
      flat.tree.text? entry.1 = some "" := by
    decide +kernel
  have hfound :
      (rootPlaces ⟨"."⟩ flatSettings.crateRoot).find? flat.isFile = some ⟨"./lib.rs"⟩ := by
    decide +kernel
  have haccepts : ∀ entry ∈ flat.tree.entries, flat.tree.isFile entry.1 = true →
      flat.tree.Accepts entry.1 :=
    fun entry hentry hfile => ⟨_, _, hfiles entry hentry hfile, hempty, rfl⟩
  have hdirectory : (FilePath.mk "./lib.rs").normalize.directory.text = "" := by decide +kernel
  exact ⟨hfound, acceptsSources_of_entries haccepts (List.find?_some hfound),
    discover_of_directory_empty (crateRoot_of_find? hfound) hdirectory⟩

end Disk

end MarkerIndex
