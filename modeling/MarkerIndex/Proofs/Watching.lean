import MarkerIndex.Project.BuildScript
import MarkerIndex.Proofs.DiscoveredSources
import MarkerIndex.Proofs.NormalFile
/-!
What a build is told to watch, beside what it reads. The directory of the sources is watched, and
the nearest configuration file. A file that a module is found in by its name lies below the
directory that the declaring file lies in, so files below the watched directory lead elsewhere only
where an attribute places a module. What is read from elsewhere is reached through such a file, or
through a root that the configuration names.
-/

namespace MarkerIndex

open FilePath

namespace PendingModule

/-- Items that declare a module without a body, where no attribute of it, or of a module written in
place around it, says where files lie. -/
inductive DeclaresByName : Site → List Item → PendingModule → Prop
  | here {site : Site} {items : List Item} {rawName : String} {attributes : List Attribute} :
      .submodule rawName attributes none ∈ items →
      attributes.findSome? Attribute.pathValue? = none →
      DeclaresByName site items
        ⟨site.module.join (Text.unraw rawName), candidatesOf site (Text.unraw rawName) none⟩
  | inside {site : Site} {items nested : List Item} {rawName : String}
      {attributes : List Attribute} {next : PendingModule} :
      .submodule rawName attributes (some nested) ∈ items →
      attributes.findSome? Attribute.pathValue? = none →
      DeclaresByName (site.inside rawName attributes) nested next →
      DeclaresByName site items next

end PendingModule

/-- The file declares a module that is found by its name. -/
def Placed.DeclaresByName (p : Placed) (next : PendingModule) : Prop :=
  PendingModule.DeclaresByName p.site p.file.items next

namespace Disk

variable {d : Disk} {p q directory : FilePath} {place base : Place}

/-- A file lies below a directory, by the places that their paths lead to. -/
def LiesBelow (d : Disk) (p directory : FilePath) : Prop :=
  ∃ base below, d.locate directory = .ok base ∧ below ≠ [] ∧ d.locate p = .ok (base ++ below)

theorem isPrefix_dropLast_iff (h : place ≠ []) :
    base <+: place.dropLast ↔ ∃ below, below ≠ [] ∧ place = base ++ below := by
  obtain ⟨above, last, rfl⟩ := (List.eq_nil_or_concat' place).resolve_left h
  rw [List.dropLast_concat]
  constructor
  · rintro ⟨rest, rfl⟩
    exact ⟨rest ++ [last], by simp, by simp⟩
  · rintro ⟨below, hne, hsame⟩
    obtain ⟨rest, last', rfl⟩ := (List.eq_nil_or_concat' below).resolve_left hne
    rw [← List.append_assoc] at hsame
    obtain ⟨rfl, -⟩ := List.append_inj' hsame rfl
    exact ⟨rest, rfl⟩

theorem locate_of_isFile (h : d.isFile p = true) :
    d.locate p = .ok (d.spelledPlace p) ∧ d.spelledPlace p ≠ [] := by
  rw [isFile_eq, Option.isSome_iff_exists] at h
  obtain ⟨contents, hcontents⟩ := h
  obtain ⟨place, hlocate, hnode⟩ := exists_of_contentsAt? hcontents
  obtain rfl := eq_spelledPlace_of_locate hlocate
  exact ⟨hlocate, FileTree.ne_nil_of_node? (t := d.tree) (by simp [hnode])⟩

/-- A file lies below a directory just when what it lies in is the directory, or lies below it. -/
theorem liesBelow_iff (hfile : d.isFile p = true) (hbase : d.locate directory = .ok base) :
    d.LiesBelow p directory ↔ base <+: (d.spelledPlace p).dropLast := by
  obtain ⟨hlocate, hne⟩ := locate_of_isFile hfile
  rw [isPrefix_dropLast_iff hne]
  constructor
  · rintro ⟨base', below, hbase', hbelow, hplace⟩
    obtain rfl := Except.ok.inj (hbase.symm.trans hbase')
    exact ⟨below, hbelow, Except.ok.inj (hlocate.symm.trans hplace)⟩
  · rintro ⟨below, hbelow, hplace⟩
    exact ⟨base, below, hbase, hbelow, hplace ▸ hlocate⟩

open PendingModule

/-- The directory that the modules of a candidate lie in is what the candidate lies in, or lies
there. -/
theorem place_of_candidate {site : Site} {items : List Item}
    {next : PendingModule} (h : Declares site items next) (hitems : Item.AllSpelled items)
    {candidate : FilePath × FilePath} (member : candidate ∈ next.candidates)
    (hfile : d.isFile candidate.1 = true) :
    (d.spelledPlace candidate.1).dropLast <+: d.spelledPlace candidate.2 := by
  induction h with
  | @here site items rawName attributes hsubmodule =>
      obtain ⟨hname, -⟩ := hitems.of_submodule hsubmodule
      cases hpath : attributes.findSome? Attribute.pathValue? with
      | some path =>
          simp only [hpath, candidatesOf, List.mem_singleton] at member
          subst member
          rw [← spelledPlace_directory (isNormal_normalize _) hfile]
      | none =>
          simp only [hpath, candidatesOf, List.mem_cons, List.not_mem_nil, or_false] at member
          rcases member with rfl | rfl
          · rw [spelledPlace_normalize, spelledPlace_normalize,
              spelledPlace_join d _ (isName_source hname),
              spelledPlace_join d _ hname, List.dropLast_concat]
            exact List.prefix_append _ _
          · rw [spelledPlace_join d _ (by decide), List.dropLast_concat]
  | inside hsubmodule _ ih => exact ih ((hitems.of_submodule hsubmodule).2 _ rfl) member

/-- The file of a module that is found by its name lies below the directory of its declaration. -/
theorem place_of_declaresByName (d : Disk) {site : Site} {items : List Item} {next : PendingModule}
    (h : DeclaresByName site items next) (hitems : Item.AllSpelled items)
    {candidate : FilePath × FilePath} (member : candidate ∈ next.candidates) :
    d.spelledPlace site.directory <+: (d.spelledPlace candidate.1).dropLast := by
  induction h with
  | @here site items rawName attributes hsubmodule _ =>
      obtain ⟨hname, -⟩ := hitems.of_submodule hsubmodule
      simp only [candidatesOf, List.mem_cons, List.not_mem_nil, or_false] at member
      rcases member with rfl | rfl
      · rw [spelledPlace_normalize, spelledPlace_join d _ (isName_source hname),
          List.dropLast_concat]
      · rw [spelledPlace_join d _ (by decide), List.dropLast_concat, spelledPlace_normalize,
          spelledPlace_join d _ hname]
        exact List.prefix_append _ _
  | @inside site items nested rawName attributes next hsubmodule hfound _ ih =>
      obtain ⟨hname, hnested⟩ := hitems.of_submodule hsubmodule
      have hinside : d.spelledPlace site.directory <+:
          d.spelledPlace (site.inside rawName attributes).directory := by
        simp only [Site.inside, hfound, Option.getD_none]
        rw [spelledPlace_join d _ hname]
        exact List.prefix_append _ _
      exact hinside.trans (ih (hnested _ rfl) member)

variable {package : FilePath} {settings : Settings} {sources : SourceSet}

theorem liesBelow_join {name : String} (hname : (Component.normal name).IsName)
    (hgap : directory.gap = "/") (hfile : d.isFile (directory / name) = true) :
    d.LiesBelow (directory / name) directory := by
  have hne : directory.text ≠ "" := by
    intro hempty
    simp [gap, hempty] at hgap
  obtain ⟨base, hbase, -⟩ :=
    exists_locate_of_join hne (isAbsolute_name hname) (locate_of_isFile hfile).1
  refine (liesBelow_iff hfile hbase).mpr ?_
  rw [spelledPlace_join d directory hname, List.dropLast_concat, eq_spelledPlace_of_locate hbase]

/-- A root that no setting names lies in the directory that a package keeps its sources in. -/
theorem liesBelow_root (h : d.sourceSet package settings = .ok sources)
    (hroot : settings.crateRoot = none)
    (hfile : d.isFile sources.root = true) : d.LiesBelow sources.root (package / "src") := by
  obtain ⟨located, hlocated, hnormal, -, -⟩ := of_sourceSet h
  rw [hroot, crateRoot] at hlocated
  split at hlocated
  · next path hfound =>
      obtain rfl := Except.ok.inj hlocated
      have hgap : (package / "src").gap = "/" := gap_join package (c := .normal "src") (by decide)
      have hbelow : d.LiesBelow path (package / "src") := by
        obtain ⟨tried, htried, rfl⟩ := List.mem_map.mp (List.mem_of_find?_eq_some hfound)
        have hfound := List.find?_some hfound
        simp only [rootNames, List.mem_cons, List.not_mem_nil, or_false] at htried
        rcases htried with rfl | rfl
        · have hsplit : package / "src/lib.rs" = package / "src" / "lib.rs" :=
            (join_assoc package ⟨"src"⟩ ⟨"lib.rs"⟩).symm
          rw [hsplit] at hfound ⊢
          exact liesBelow_join (by decide) hgap hfound
        · have hsplit : package / "src/main.rs" = package / "src" / "main.rs" :=
            (join_assoc package ⟨"src"⟩ ⟨"main.rs"⟩).symm
          rw [hsplit] at hfound ⊢
          exact liesBelow_join (by decide) hgap hfound
      obtain ⟨base, -, hbase, -⟩ := id hbelow
      rw [liesBelow_iff hfile hbase, hnormal, spelledPlace_normalize]
      exact (liesBelow_iff (List.find?_some hfound) hbase).mp hbelow
  · cases hlocated

end Disk

/-- A crate as it is found on a disk, with the directories that the modules of its files lie in. -/
structure Disk.FoundCrate (d : Disk) (project : FilePath) (settings : Settings) where
  sources : SourceSet
  text : String
  placed : List Placed
  found : d.sourceSet project settings = .ok sources
  root : d.readText sources.root = .ok text
  loads : (d.crateLoader sources text).Loads sources.root placed

namespace Disk.FoundCrate

variable {d : Disk} {project directory : FilePath} {settings : Settings}
  {crate : d.FoundCrate project settings} {p q : Placed}

def files (crate : d.FoundCrate project settings) : List SourceFile :=
  (crate.placed.map (·.file)).reverse.mergeSort fun f g => f.path.le g.path

theorem mem_files {f : SourceFile} : f ∈ crate.files ↔ ∃ p ∈ crate.placed, p.file = f := by
  rw [files, List.mem_mergeSort, List.mem_reverse, List.mem_map]

/-- The files that a loading reads. -/
def text? (crate : d.FoundCrate project settings) (path : FilePath) : Option String :=
  (d.crateLoader crate.sources crate.text).text? path

/-- A loaded file declares a module in one of some ways, and the other file is loaded for it. -/
structure LeadsBy (crate : d.FoundCrate project settings) (way : Placed → PendingModule → Prop)
    (q p : Placed) : Prop where
  mem : q ∈ crate.placed ∧ p ∈ crate.placed
  declares : ∃ next, way q next ∧ next.file? crate.text? = some (p.file.path, p.directory)

abbrev Leads (crate : d.FoundCrate project settings) : Placed → Placed → Prop :=
  crate.LeadsBy Placed.Declares

abbrev LeadsByName (crate : d.FoundCrate project settings) : Placed → Placed → Prop :=
  crate.LeadsBy Placed.DeclaresByName

/-- A file that does not lie below a directory, and that is the root, named by a setting, or the
file of a module that an attribute places. -/
structure Strays (crate : d.FoundCrate project settings) (directory : FilePath)
    (p : Placed) : Prop where
  mem : p ∈ crate.placed
  elsewhere : ¬ d.LiesBelow p.file.path directory
  placed : p.file.isRoot = true ∧ settings.crateRoot ≠ none ∨
    ∃ q, crate.Leads q p ∧ ¬ crate.LeadsByName q p

theorem isFile_root (crate : d.FoundCrate project settings) :
    d.isFile crate.sources.root = true := by
  obtain ⟨located, hlocated, hroot, -, -⟩ := of_sourceSet crate.found
  have hfile := isFile_of_crateRoot hlocated
  rw [hroot, isFile_of_locate (locate_normalize hfile),
    ← isFile_of_locate (locate_of_isFile hfile).1]
  exact hfile

theorem isFile_of_text? {path : FilePath} (h : (crate.text? path).isSome = true) :
    d.isFile path = true := by
  by_contra hfile
  have hroot : path ≠ crate.sources.root := by
    rintro rfl
    exact hfile crate.isFile_root
  have hnone : (d.crateLoader crate.sources crate.text).read path = .ok none :=
    (if_neg hroot).trans (moduleText_of_not_isFile hfile _)
  simp [text?, Loader.text?, hnone] at h

theorem isFile (hp : p ∈ crate.placed) : d.isFile p.file.path = true := by
  obtain ⟨text, htext, -⟩ := crate.loads.isModuleClosure.read p hp
  have hsome : (crate.text? p.file.path).isSome = true := by
    rw [text?, htext]
    rfl
  exact isFile_of_text? hsome

theorem allSpelled (hp : p ∈ crate.placed) : Item.AllSpelled p.file.items := by
  obtain ⟨text, -, hitems⟩ := crate.loads.isModuleClosure.read p hp
  exact Grammar.allSpelled_of_parseFile hitems

/-- The directory that the modules of a file lie in is what the file lies in, or lies there. -/
theorem place_directory (hp : p ∈ crate.placed) :
    (d.spelledPlace p.file.path).dropLast <+: d.spelledPlace p.directory := by
  have hclosure := crate.loads.isModuleClosure
  cases hclosure.sound p hp with
  | root _ hisRoot _ =>
      obtain ⟨hpath, hdirectory⟩ := hclosure.of_isRoot hp hisRoot
      have hfile := crate.isFile_root
      rw [hdirectory, hpath, spelledPlace_directory (isNormal_root crate.found) hfile]
  | declared hfrom hdeclares hfile _ _ _ =>
      have hplace := place_of_candidate hdeclares (allSpelled hfrom.mem)
        (List.mem_of_find?_eq_some hfile) (isFile hp)
      exact hplace

/-- From below a directory names lead only below it. -/
theorem LeadsByName.liesBelow (h : crate.LeadsByName q p)
    (hq : d.LiesBelow q.file.path directory) : d.LiesBelow p.file.path directory := by
  obtain ⟨⟨hqm, hpm⟩, next, hdeclares, hfile⟩ := h
  obtain ⟨base, -, hbase, -⟩ := id hq
  rw [liesBelow_iff (isFile hqm) hbase] at hq
  rw [liesBelow_iff (isFile hpm) hbase]
  have hbelow :=
    place_of_declaresByName d hdeclares (allSpelled hqm) (List.mem_of_find?_eq_some hfile)
  have hdirectory : base <+: d.spelledPlace q.directory := hq.trans (place_directory hqm)
  exact hdirectory.trans hbelow

/-- What is read from elsewhere is reached through a file that a setting or an attribute places
there. -/
theorem liesBelow_or_strays (hp : p ∈ crate.placed) :
    d.LiesBelow p.file.path (project / "src") ∨
      ∃ q, Relation.ReflTransGen crate.Leads q p ∧ crate.Strays (project / "src") q := by
  have hclosure := crate.loads.isModuleClosure
  have hfrom := hclosure.sound p hp
  clear hp
  induction hfrom with
  | @root p hp hisRoot hmodule =>
      obtain ⟨hpath, -⟩ := hclosure.of_isRoot hp hisRoot
      by_cases hbelow : d.LiesBelow p.file.path (project / "src")
      · exact Or.inl hbelow
      · refine Or.inr ⟨p, .refl, hp, hbelow, Or.inl ⟨hisRoot, fun hnone => hbelow ?_⟩⟩
        have hfile := isFile hp
        rw [hpath] at hfile ⊢
        exact liesBelow_root crate.found hnone hfile
  | @declared q p next hfrom hdeclares hfile _ _ hp ih =>
      have hleads : crate.Leads q p := ⟨⟨hfrom.mem, hp⟩, next, hdeclares, hfile⟩
      by_cases hbelow : d.LiesBelow p.file.path (project / "src")
      · exact Or.inl hbelow
      · right
        rcases ih with hq | ⟨r, hchain, hstrays⟩
        -- the way leaves the directory here, which a name cannot do
        · exact ⟨p, .refl, hp, hbelow,
            Or.inr ⟨q, hleads, fun hname => hbelow (hname.liesBelow hq)⟩⟩
        · exact ⟨r, hchain.tail hleads, hstrays⟩

end Disk.FoundCrate

namespace Config

variable {d : Disk} {project : FilePath}

/-- The file whose contents are the configuration of a project, if one is. -/
def deciding? (d : Disk) (project : FilePath) : Option FilePath :=
  (places project).find? fun p => (tryRead? d p).isSome

theorem load_eq (d : Disk) (project : FilePath) :
    load d project = ((deciding? d project).bind (tryRead? d)).getD standard := by
  rw [load, deciding?]
  congr 1
  induction places project with
  | nil => rfl
  | cons p places ih =>
      cases hread : tryRead? d p with
      | none => simpa [hread] using ih
      | some config => simp [hread]

theorem isName_fileNameInProject : (Component.normal fileNameInProject).IsName := by
  decide

theorem isFile_of_tryRead? {p : FilePath} (hp : p ∈ places project)
    (h : (tryRead? d p).isSome = true) : d.isFile p = true := by
  obtain ⟨directory, -, rfl⟩ := List.mem_map.mp hp
  unfold tryRead? at h
  split at h
  · cases h
  · next text htext =>
      exact Disk.isFile_of_readText_hidden isName_fileNameInProject (by decide) htext

/-- Where the nearest configuration file can be read as one, it decides. -/
theorem deciding?_eq_find? (h : ∀ p, find? d project = some p → (tryRead? d p).isSome = true) :
    deciding? d project = find? d project := by
  cases hfind : find? d project with
  | none =>
      rw [find?, List.find?_eq_none] at hfind
      exact List.find?_eq_none.mpr fun p hp hread =>
        hfind p hp (isFile_of_tryRead? hp hread)
  | some p =>
      have hread := h p hfind
      rw [find?, List.find?_eq_some_iff_append] at hfind
      obtain ⟨-, before, after, hplaces, hbefore⟩ := hfind
      refine List.find?_eq_some_iff_append.mpr ⟨hread, before, after, hplaces, fun q hq => ?_⟩
      have hfile : ¬ d.isFile q = true := by simpa using hbefore q hq
      have hplace : q ∈ places project := hplaces ▸ List.mem_append_left _ hq
      simpa using fun hread => hfile (isFile_of_tryRead? hplace hread)

theorem declarableName_standard :
    declarableName "output.namespace" standard.module = .ok standard.module :=
  Pass.ok_of_toOption (by decide +kernel)

/-- The settings of a project whose configuration says no more than how the output is called and
where the root lies. -/
theorem settings_eq {module name : String} {root : Option FilePath}
    (hload : load d project =
      { standard with module := module, fileName := name, crateRoot := root })
    (hmodule : declarableName "output.namespace" module = .ok module)
    (hname : checkFileName name = .ok ()) :
    settings d project none =
      .ok { Settings.standard with module := module, fileName := name, crateRoot := root } := by
  have hregistration : markerPath "markers.registration" standard.registration =
      .ok Settings.standard.registration := Pass.ok_of_toOption (by decide +kernel)
  have hdirective : markerPath "markers.directive" standard.directive =
      .ok Settings.standard.directive := Pass.ok_of_toOption (by decide +kernel)
  have hcontainer : declarableName "output.container" standard.container =
      .ok Settings.standard.container := Pass.ok_of_toOption (by decide +kernel)
  have hignore : standard.ignore.forM checkPattern = .ok () :=
    Pass.ok_of_toOption (by decide +kernel)
  rw [settings, hload]
  simp only [validate, hregistration, hdirective, hmodule, hcontainer, hname, hignore,
    bind, Except.bind]
  rfl

end Config

namespace Disk

variable {d : Disk} {package out : FilePath}

/-- A change of the file makes the build run again: it is one of the watched, or lies below one. -/
def Watches (d : Disk) (package p : FilePath) : Prop :=
  ∃ q ∈ d.watched package, ∃ base place, d.locate q = .ok base ∧ d.locate p = .ok place ∧
    base <+: place

instance (d : Disk) (package p : FilePath) : Decidable (d.Watches package p) :=
  decidable_of_iff (∃ q ∈ d.watched package,
      (d.locate q).toOption.any fun base => (d.locate p).toOption.any base.isPrefixOf) <| by
    have hcovers : ∀ q : FilePath,
        (∃ base place, d.locate q = .ok base ∧ d.locate p = .ok place ∧ base <+: place) ↔
        ((d.locate q).toOption.any fun base =>
          (d.locate p).toOption.any base.isPrefixOf) = true := by
      intro q
      cases d.locate q <;> cases d.locate p <;> simp [Except.toOption]
    simp only [Watches, hcovers]

theorem LiesBelow.watches {p : FilePath} (h : d.LiesBelow p (package / "src")) :
    d.Watches package p := by
  obtain ⟨base, below, hbase, -, hplace⟩ := h
  exact ⟨package / "src", List.mem_cons_self, base, _, hbase, hplace, List.prefix_append base below⟩

theorem generate_eq (d : Disk) (project : FilePath) (settings : Settings) :
    d.generate project settings =
      match (d.discover project settings).result with
      | .error error => .error error
      | .ok corpus => Pass.generate corpus settings := by
  rw [generate, generateTraced, Traced.result_bind]
  cases (d.discover project settings).result <;> rfl

theorem exists_corpus_of_generate {project : FilePath} {settings : Settings}
    {artifact : Option Artifact}
    (h : d.generate project settings = .ok artifact) :
    ∃ c, (d.discover project settings).result = .ok c := by
  rw [generate_eq] at h
  split at h
  · cases h
  · next c hcorpus => exact ⟨c, hcorpus⟩

/-- A build that finds its settings and a crate delivers what is generated. -/
theorem build_eq {settings : Settings} {artifact : Option Artifact}
    (hsettings : Config.settings d package none = .ok settings)
    (hgenerate : d.generate package settings = .ok artifact) : d.build package out =
      let change := d.deliver (out / settings.fileName) (artifact.map (·.contents))
      ⟨change.result.map (buildResult (out / settings.fileName)),
        String.join ((d.watched package).map watchLine), "", change.disk,
        (d.generateTraced package settings).events⟩ := by
  have hinto : d.generateInto package out =
      let change := d.deliver (out / settings.fileName) (artifact.map (·.contents))
      ⟨⟨change.result.map (buildResult (out / settings.fileName)),
        (d.generateTraced package settings).events⟩, change.disk⟩ := by
    unfold generateInto
    rw [hsettings]
    dsimp only
    rw [← generate, hgenerate]
  unfold build
  rw [hinto]

/-- A build fails before it delivers anything, or it delivers what was generated. -/
theorem build_cases (d : Disk) (package out : FilePath) :
    (∃ error, (d.build package out).result = .error error ∧ (d.build package out).disk = d) ∨
    ∃ settings artifact, Config.settings d package none = .ok settings ∧
      d.generate package settings = .ok artifact := by
  unfold build
  dsimp only
  unfold generateInto
  cases hsettings : Config.settings d package none with
  | error error => exact Or.inl ⟨error, rfl, rfl⟩
  | ok settings =>
      dsimp only
      rw [← generate]
      cases hgenerate : d.generate package settings with
      | error error => exact Or.inl ⟨error, rfl, rfl⟩
      | ok artifact => exact Or.inr ⟨settings, artifact, rfl, hgenerate⟩

/-- A build that gets through has read a configuration and found a crate. -/
theorem of_build {path : Option FilePath} (h : (d.build package out).result = .ok path) :
    ∃ settings c, Config.settings d package none = .ok settings ∧
      (d.discover package settings).result = .ok c := by
  rcases build_cases d package out with
      ⟨error, herror, -⟩ | ⟨settings, artifact, hsettings, hgenerate⟩
  · rw [herror] at h
    cases h
  · obtain ⟨c, hcorpus⟩ := exists_corpus_of_generate hgenerate
    exact ⟨settings, c, hsettings, hcorpus⟩

/-- A build that gets through is told to watch every file that it loaded, but for what is reached
through a file elsewhere that a setting or an attribute places there. Where the nearest
configuration file can be read as one, or there is none, it is the one that decides, and it is
watched. -/
theorem build_watches {path : Option FilePath}
    (h : (d.build package out).result = .ok path) :
    (d.build package out).output = String.join ((d.watched package).map watchLine) ∧
    ∃ settings c, ∃ crate : d.FoundCrate package settings,
      Config.settings d package none = .ok settings ∧
      (d.discover package settings).result = .ok c ∧ c.files = crate.files ∧
      (∀ p ∈ crate.placed, d.Watches package p.file.path ∨
        ∃ q, Relation.ReflTransGen crate.Leads q p ∧ crate.Strays (package / "src") q) ∧
      Config.load d package =
        ((Config.deciding? d package).bind (Config.tryRead? d)).getD .standard ∧
      ((∀ p, Config.find? d package = some p → (Config.tryRead? d p).isSome = true) →
        Config.deciding? d package = Config.find? d package ∧
          ∀ p, Config.deciding? d package = some p → d.Watches package p) := by
  refine ⟨rfl, ?_⟩
  obtain ⟨settings, c, hsettings, hcorpus⟩ := of_build h
  obtain ⟨sources, text, placed, hsources, htext, hloads, hfiles⟩ := discover_eq_ok_iff.mp hcorpus
  refine ⟨settings, c, ⟨sources, text, placed, hsources, htext, hloads⟩, hsettings,
    hcorpus, hfiles, ?_, Config.load_eq d package, ?_⟩
  · intro p hp
    exact (FoundCrate.liesBelow_or_strays hp).imp_left LiesBelow.watches
  · intro hreadable
    have hnearest := Config.deciding?_eq_find? hreadable
    refine ⟨hnearest, fun p hdeciding => ?_⟩
    have hfind := hnearest.symm.trans hdeciding
    obtain ⟨hlocate, -⟩ := locate_of_isFile (List.find?_some hfind)
    exact ⟨p, by simp [watched, hfind], _, _, hlocate, hlocate, List.prefix_rfl⟩

/-- A build that finds nothing to generate, where no file stands. -/
theorem build_eq_none {settings : Settings} {c : Corpus}
    (hsettings : Config.settings d package none = .ok settings)
    (hcorpus : (d.discover package settings).result = .ok c)
    (hnothing : Pass.generate c settings = .ok none)
    (habsent : d.isFile (out / settings.fileName) = false) :
    (d.build package out).result = .ok none := by
  have hgenerate : d.generate package settings = .ok none := by
    rw [generate_eq, hcorpus]; exact hnothing
  have hexisting : d.existing (out / settings.fileName) = .ok none := by rw [existing, habsent]; rfl
  rw [build_eq hsettings hgenerate, Option.map_none, deliver, hexisting]
  rfl

/-- A package with a module beside its root, and a configuration. -/
def packaged : Disk where
  tree := .ofTexts [(["x", ".markscan.toml"], "[output]\nnamespace = \"marks\"\n"),
    (["x", "src", "lib.rs"], "mod part;\n"), (["x", "src", "part.rs"], "")]
  here := ["x"]

def packagedSettings : Settings :=
  { Settings.standard with module := "marks" }

def packagedFiles : List SourceFile :=
  [⟨⟨"src/lib.rs"⟩, .crateRoot, [.submodule "part" [] none], true⟩,
    ⟨⟨"src/part.rs"⟩, ⟨["crate", "part"]⟩, [], false⟩]

theorem settings_packaged : Config.settings packaged ⟨"."⟩ none = .ok packagedSettings :=
  Config.settings_eq (by decide +kernel) (Pass.ok_of_toOption (by decide +kernel)) rfl

theorem discover_packaged :
    (packaged.discover ⟨"."⟩ packagedSettings).result = .ok ⟨packagedFiles⟩ := by
  let sources : SourceSet := ⟨⟨"src/lib.rs"⟩, ⟨"src"⟩, [⟨"lib.rs"⟩, ⟨"part.rs"⟩]⟩
  let part : PendingModule := ⟨⟨["crate", "part"]⟩,
    [(⟨"src/part.rs"⟩, ⟨"src/part"⟩), (⟨"src/part/mod.rs"⟩, ⟨"src/part"⟩)]⟩
  let items : List Item := [.submodule "part" [] none]
  have hlocated : packaged.crateRoot ⟨"."⟩ packagedSettings.crateRoot = .ok ⟨"./src/lib.rs"⟩ := by
    decide +kernel
  have hplace : packaged.locate ⟨"src"⟩ = .ok ["x", "src"] := by decide +kernel
  have hsources : packaged.sourceSet ⟨"."⟩ packagedSettings = .ok sources :=
    sourceSet_eq hlocated (by decide +kernel) (by decide +kernel)
      (sourceFiles_eq hplace (by decide +kernel) (by decide +kernel) (by decide +kernel))
  have hdeclared : ((Placed.ofRoot ⟨"src/lib.rs"⟩ items).file.declaredModules
      (FilePath.directory ⟨"src/lib.rs"⟩)).reverse = [] ++ [part] := by decide +kernel
  have hitems : Grammar.parseFile "mod part;\n" = .ok items :=
    Item.parse_of_sameAll (by decide +kernel)
  have hinner : Grammar.parseFile "" = .ok [] := Item.parse_of_sameAll (by decide +kernel)
  have hloads := Loader.loads_pair (l := packaged.crateLoader sources "mod part;\n") rfl hitems part
    ⟨⟨"src/part.rs"⟩, ⟨"src/part"⟩, ""⟩ hdeclared (by simp) (by decide +kernel) hinner rfl
  exact discover_eq_ok hsources (Pass.ok_of_toOption (by decide +kernel)) hloads rfl
    (by decide +kernel)

/-- The module and the configuration are both watched. -/
theorem build_watches_packaged :
    (packaged.build ⟨"."⟩ ⟨"out"⟩).result = .ok none ∧
    (packaged.build ⟨"."⟩ ⟨"out"⟩).output =
      "cargo:rerun-if-changed=./src\ncargo:rerun-if-changed=./.markscan.toml\n" ∧
    packaged.Watches ⟨"."⟩ ⟨"src/part.rs"⟩ ∧
    Config.deciding? packaged ⟨"."⟩ = some ⟨"./.markscan.toml"⟩ ∧
    packaged.Watches ⟨"."⟩ ⟨"./.markscan.toml"⟩ := by
  have hdeciding : Config.deciding? packaged ⟨"."⟩ = some ⟨"./.markscan.toml"⟩ := by decide +kernel
  have hfind : Config.find? packaged ⟨"."⟩ = some ⟨"./.markscan.toml"⟩ := by decide +kernel
  have hnothing : Pass.generate ⟨packagedFiles⟩ packagedSettings = .ok none :=
    Pass.ok_of_toOption (by decide +kernel)
  have hbuild : (packaged.build ⟨"."⟩ ⟨"out"⟩).result = .ok none :=
    build_eq_none settings_packaged discover_packaged hnothing (by decide +kernel)
  obtain ⟨houtput, settings, c, crate, hsettings, hcorpus, hfiles, hwatched, -, hconfig⟩ :=
    build_watches hbuild
  obtain rfl : packagedSettings = settings := Except.ok.inj (settings_packaged.symm.trans hsettings)
  obtain rfl : Corpus.mk packagedFiles = c := Except.ok.inj (discover_packaged.symm.trans hcorpus)
  have hplaced : ∀ f, f ∈ packagedFiles ↔ ∃ p ∈ crate.placed, p.file = f := by
    intro f
    rw [show packagedFiles = crate.files from hfiles, FoundCrate.mem_files]
  have hbelow : ∀ f ∈ packagedFiles, packaged.LiesBelow f.path (FilePath.mk "." / "src") := by
    simp only [packagedFiles, List.forall_mem_cons, List.not_mem_nil, false_imp_iff,
      implies_true, and_true]
    exact ⟨⟨["x", "src"], ["lib.rs"], by decide +kernel, by simp, by decide +kernel⟩,
      ⟨["x", "src"], ["part.rs"], by decide +kernel, by simp, by decide +kernel⟩⟩
  refine ⟨hbuild, houtput.trans (by decide +kernel), ?_, hdeciding, ?_⟩
  · obtain ⟨p, hp, hfile⟩ := (hplaced ⟨⟨"src/part.rs"⟩, ⟨["crate", "part"]⟩, [], false⟩).mp
      (by simp [packagedFiles])
    have hpath : p.file.path = ⟨"src/part.rs"⟩ := by rw [hfile]
    rw [← hpath]
    refine (hwatched p hp).resolve_right ?_
    rintro ⟨q, -, hstrays⟩
    exact hstrays.elsewhere (hbelow q.file ((hplaced q.file).mpr ⟨q, hstrays.mem, rfl⟩))
  · refine (hconfig fun p hp => ?_).2 _ hdeciding
    obtain rfl := Option.some.inj (hfind.symm.trans hp)
    decide +kernel

/-- The build gets through, and loads a file that it is not told to watch. -/
def Overlooks (d : Disk) (package out : FilePath) : Prop :=
  ∃ path settings c, (d.build package out).result = .ok path ∧
    Config.settings d package none = .ok settings ∧ (d.discover package settings).result = .ok c ∧
    ∃ f ∈ c.files, ¬ d.Watches package f.path

/-- A package with a file of a module beside the directory of its sources. -/
def outlying : Disk where
  tree := .ofTexts [(["x", "src", "lib.rs"], "#[path = \"../tool.rs\"]\nmod tool;\n"),
    (["x", "tool.rs"], "")]
  here := ["x"]

def outlyingItems : List Item :=
  [.submodule "tool" [⟨false, ⟨false, ["path"], 1⟩, .value (some "../tool.rs")⟩] none]

def outlyingFiles : List SourceFile :=
  [⟨⟨"src/lib.rs"⟩, .crateRoot, outlyingItems, true⟩, ⟨⟨"tool.rs"⟩, ⟨["crate", "tool"]⟩, [], false⟩]

def outlyingSources : SourceSet :=
  ⟨⟨"src/lib.rs"⟩, ⟨"src"⟩, [⟨"lib.rs"⟩]⟩

theorem sourceSet_outlying : outlying.sourceSet ⟨"."⟩ .standard = .ok outlyingSources := by
  have hlocated : outlying.crateRoot ⟨"."⟩ Settings.standard.crateRoot = .ok ⟨"./src/lib.rs"⟩ := by
    decide +kernel
  have hplace : outlying.locate ⟨"src"⟩ = .ok ["x", "src"] := by decide +kernel
  exact sourceSet_eq hlocated (by decide +kernel) (by decide +kernel)
    (sourceFiles_eq hplace (by decide +kernel) (by decide +kernel) (by decide +kernel))

theorem discover_outlying : (outlying.discover ⟨"."⟩ .standard).result = .ok ⟨outlyingFiles⟩ := by
  let text : String := "#[path = \"../tool.rs\"]\nmod tool;\n"
  let tool : PendingModule := ⟨⟨["crate", "tool"]⟩, [(⟨"tool.rs"⟩, ⟨""⟩)]⟩
  have hdeclared : ((Placed.ofRoot ⟨"src/lib.rs"⟩ outlyingItems).file.declaredModules
      (FilePath.directory ⟨"src/lib.rs"⟩)).reverse = [] ++ [tool] := by decide +kernel
  have hitems : Grammar.parseFile text = .ok outlyingItems :=
    Item.parse_of_sameAll (by decide +kernel)
  have hinner : Grammar.parseFile "" = .ok [] := Item.parse_of_sameAll (by decide +kernel)
  have hloads := Loader.loads_pair (l := outlying.crateLoader outlyingSources text) rfl hitems tool
    ⟨⟨"tool.rs"⟩, ⟨""⟩, ""⟩ hdeclared (by simp) (by decide +kernel) hinner rfl
  exact discover_eq_ok sourceSet_outlying (Pass.ok_of_toOption (by decide +kernel)) hloads rfl
    (by decide +kernel)

/-- A package whose root declares no modules. -/
theorem discover_root {settings : Settings} {sources : SourceSet} {text : String}
    {items : List Item} (hsources : d.sourceSet package settings = .ok sources)
    (htext : d.readText sources.root = .ok text) (hitems : Grammar.parseFile text = .ok items)
    (hnone : (Placed.ofRoot sources.root items).file.declaredModules
      (FilePath.directory sources.root) = []) :
    (d.discover package settings).result = .ok ⟨[⟨sources.root, .crateRoot, items, true⟩]⟩ := by
  have hroot : (d.crateLoader sources text).text? sources.root = some text := by
    rw [Loader.text?, read_root]
  exact discover_eq_ok hsources htext (Loader.loads_of_root hroot hitems hnone) rfl (by simp)

/-- A package whose root is empty. -/
theorem discover_empty {settings : Settings} {sources : SourceSet}
    (hsources : d.sourceSet package settings = .ok sources)
    (htext : d.readText sources.root = .ok "") :
    (d.discover package settings).result = .ok ⟨[⟨sources.root, .crateRoot, [], true⟩]⟩ :=
  discover_root hsources htext (Item.parse_of_sameAll (by decide +kernel)) rfl

theorem generate_empty {settings : Settings} {sources : SourceSet}
    (hsources : d.sourceSet package settings = .ok sources)
    (htext : d.readText sources.root = .ok "") :
    d.generate package settings = .ok none := by
  rw [generate_eq, discover_empty hsources htext]
  rfl

/-- A package whose configuration names a root in another directory. -/
def relocated : Disk where
  tree := .ofTexts [(["x", ".markscan.toml"], "[source]\ncrate_root = \"lib/lib.rs\"\n"),
    (["x", "lib", "lib.rs"], "")]
  here := ["x"]

def relocatedSettings : Settings :=
  { Settings.standard with crateRoot := some ⟨"lib/lib.rs"⟩ }

theorem discover_relocated : (relocated.discover ⟨"."⟩ relocatedSettings).result =
    .ok ⟨[⟨⟨"lib/lib.rs"⟩, .crateRoot, [], true⟩]⟩ := by
  let sources : SourceSet := ⟨⟨"lib/lib.rs"⟩, ⟨"lib"⟩, [⟨"lib.rs"⟩]⟩
  have hlocated : relocated.crateRoot ⟨"."⟩ relocatedSettings.crateRoot = .ok ⟨"./lib/lib.rs"⟩ := by
    decide +kernel
  have hplace : relocated.locate ⟨"lib"⟩ = .ok ["x", "lib"] := by decide +kernel
  have hsources : relocated.sourceSet ⟨"."⟩ relocatedSettings = .ok sources :=
    sourceSet_eq hlocated (by decide +kernel) (by decide +kernel)
      (sourceFiles_eq hplace (by decide +kernel) (by decide +kernel) (by decide +kernel))
  exact discover_empty hsources (Pass.ok_of_toOption (by decide +kernel))

/-- A file that an attribute places beside the directory of the sources is not watched, and neither
is a root that the configuration names elsewhere. -/
theorem build_overlooks :
    outlying.Overlooks ⟨"."⟩ ⟨"out"⟩ ∧ relocated.Overlooks ⟨"."⟩ ⟨"out"⟩ := by
  have houtlying : Config.settings outlying ⟨"."⟩ none = .ok .standard :=
    Config.settings_eq (by decide +kernel) Config.declarableName_standard rfl
  have hrelocated : Config.settings relocated ⟨"."⟩ none = .ok relocatedSettings :=
    Config.settings_eq (by decide +kernel) Config.declarableName_standard rfl
  refine ⟨⟨none, _, _, ?_, houtlying, discover_outlying, ?_⟩,
    ⟨none, _, _, ?_, hrelocated, discover_relocated, ?_⟩⟩
  · exact build_eq_none houtlying discover_outlying (Pass.ok_of_toOption (by decide +kernel))
      (by decide +kernel)
  · exact ⟨_, List.mem_cons_of_mem _ List.mem_cons_self, by decide +kernel⟩
  · exact build_eq_none hrelocated discover_relocated (Pass.ok_of_toOption (by decide +kernel))
      (by decide +kernel)
  · exact ⟨_, List.mem_cons_self, by decide +kernel⟩

end Disk

end MarkerIndex
