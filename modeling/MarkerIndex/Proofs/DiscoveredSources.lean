import MarkerIndex.Proofs.BelowDirectory
/-!
A crate that is found on a disk, beside the crate of the same texts. What is loaded from below the
directory of the root is among the source files that a walk lists there. Where modules are found by
their names, that is all that is loaded, and the crate is the one that the listed texts make up,
moved below the directory.
-/

namespace MarkerIndex

open FilePath

namespace BaseDirectory

variable {names : List String}

theorem not_isAbsolute_below (h : AreNames names) : ¬ (origin.below names).isAbsolute = true := by
  have hcomponents : (origin.below names).components = names.map .normal :=
    components_spelled origin.outset (areNames_below h)
  rw [← root_mem_components_iff, hcomponents]
  simp

theorem below_single (name : String) : origin.below [name] = ⟨name⟩ := by
  simp [below, origin, spelled, ofComponents, FilePath.join, Component.text]

/-- Names that are told apart by slashes are a path from here. -/
theorem intercalate_eq (hne : names ≠ []) (h : AreNames names) :
    FilePath.mk (String.intercalate "/" names) = origin.below names := by
  induction names with
  | nil => exact absurd rfl hne
  | cons name names ih =>
      obtain ⟨hname, hnames⟩ := List.forall_mem_cons.mp h
      by_cases hrest : names = []
      · subst hrest
        rw [below_single, String.intercalate_singleton]
      · have hsplit :
            origin.below (name :: names) = (origin.below [name]).join (origin.below names) :=
          spelled_append [] [name] hrest
        have hgap : (FilePath.mk name).gap = "/" := by
          have hjoin : (FilePath.mk "").join ⟨(Component.normal name).text⟩ = ⟨name⟩ := by
            simp [FilePath.join, Component.text]
          rw [← hjoin, gap_join _ hname]
        rw [hsplit, join_eq _ (not_isAbsolute_below hnames), below_single, hgap, ← ih hrest hnames,
          String.intercalate_cons_of_ne_nil hrest]

end BaseDirectory

namespace FileTree

variable {t : FileTree} {base : Place}

/-- The path by which a walk from a directory lists what lies at a place, if it comes there. -/
def reached? (t : FileTree) (base : Place) (entry : Place × FileNode) : Option FilePath :=
  match entry.2 with
  | .directory | .special _ => none
  | .file _ =>
    if base.isPrefixOf entry.1 && base.length < entry.1.length && t.isReached base entry.1 then
      some ⟨String.ofList (pathBelow base entry.1)⟩
    else none

theorem reachedFiles_eq (t : FileTree) (base : Place) :
    t.reachedFiles base = t.entries.filterMap (t.reached? base) := rfl

/-- What a walk comes to are files, told by the names that lead there from where it starts. -/
theorem exists_names_of_reached? {entry : Place × FileNode} (hentry : entry ∈ t.entries)
    {p : FilePath} (h : t.reached? base entry = some p) :
    ∃ names, names ≠ [] ∧ AreNames names ∧ p = BaseDirectory.origin.below names ∧
      entry.1 = base ++ names ∧ ∃ contents, entry.2 = .file contents := by
  unfold reached? at h
  split at h
  · cases h
  · cases h
  · next contents hfile =>
      obtain ⟨hbelow, hpath⟩ := Option.ite_none_right_eq_some.mp h
      simp only [Bool.and_eq_true, decide_eq_true_eq] at hbelow
      obtain ⟨names, hnames⟩ := List.isPrefixOf_iff_prefix.mp hbelow.1.1
      have hne : names ≠ [] := by
        rintro rfl
        simp [← hnames] at hbelow
      have hare : AreNames names := fun name hname =>
        t.names _ hentry name (hnames ▸ List.mem_append_right base hname)
      refine ⟨names, hne, hare, ?_, hnames.symm, contents, hfile⟩
      rw [← Option.some.inj hpath, pathBelow, ← hnames, List.drop_left, String.ofList_toList,
        BaseDirectory.intercalate_eq hne hare]

end FileTree

namespace Disk

variable {d : Disk} {p q : FilePath} {ignore : List String} {candidates : List FilePath}

/-- What a walk lists are files, by paths down from where it starts. -/
theorem of_mem_sourceFiles (h : d.sourceFiles p ignore = .ok candidates)
    (member : q ∈ candidates) :
    ∃ names, names ≠ [] ∧ AreNames names ∧ q = BaseDirectory.origin.below names ∧
      ∃ contents, d.tree.node? (d.spelledPlace p ++ names) = some (.file contents) := by
  unfold sourceFiles at h
  split at h
  · cases h
  · next base hbase =>
      split at h
      · obtain rfl := Except.ok.inj h
        rw [List.mem_mergeSort, List.mem_filter, FileTree.reachedFiles_eq] at member
        obtain ⟨entry, hentry, hreached⟩ := List.mem_filterMap.mp member.1
        obtain ⟨names, hne, hnames, hpath, hplace, contents, hfile⟩ :=
          FileTree.exists_names_of_reached? hentry hreached
        refine ⟨names, hne, hnames, hpath, contents, ?_⟩
        rw [← eq_spelledPlace_of_locate hbase]
        refine FileTree.node?_of_mem (by simp [hne]) ?_
        rwa [← hplace, ← hfile]
      · cases h

theorem exists_names_of_mem_sourceFiles (h : d.sourceFiles p ignore = .ok candidates)
    (member : q ∈ candidates) :
    ∃ names, names ≠ [] ∧ AreNames names ∧ q = BaseDirectory.origin.below names := by
  obtain ⟨names, hne, hnames, hpath, -⟩ := of_mem_sourceFiles h member
  exact ⟨names, hne, hnames, hpath⟩

/-- The texts of the source files of a crate and of its root file, by their paths below the
directory of the root. -/
def sourceTexts (d : Disk) (sources : SourceSet) (root : FilePath) : List (FilePath × String) :=
  (sources.candidates ++ [root]).filterMap fun path =>
    (d.readText (sources.directory.join path)).toOption.map (path, ·)

end Disk

/-- Texts that are read by paths in normal form are found by these paths. -/
theorem textOf?_filterMap (read : FilePath → Option String) {paths : List FilePath}
    (hnormal : ∀ path ∈ paths, path.normalize = path) (path : FilePath) :
    textOf? (paths.filterMap fun path => (read path).map (path, ·)) path =
      if path ∈ paths then read path else none := by
  induction paths using List.reverseRecOn with
  | nil => rfl
  | append_singleton paths last ih =>
      have hpaths : ∀ path ∈ paths, path.normalize = path :=
        fun path member => hnormal path (List.mem_append_left _ member)
      have hlast : last.normalize = last := hnormal last (by simp)
      have hone : textOf? ((paths ++ [last]).filterMap fun path => (read path).map (path, ·)) path =
          if path = last ∧ (read last).isSome = true then read last
          else textOf? (paths.filterMap fun path => (read path).map (path, ·)) path := by
        rw [List.filterMap_append]
        cases hread : read last with
        | none => simp [hread]
        | some text => simp [hread, textOf?_concat hlast]
      rw [hone, ih hpaths]
      by_cases h : path = last
      · subst h
        cases hread : read path <;> simp
      · simp [h]

namespace FilePath

theorem compareComponents_append (front as bs : List Component) :
    compareComponents (front ++ as) (front ++ bs) = compareComponents as bs := by
  induction front with
  | nil => rfl
  | cons c front ih =>
      have hsame : c.compare c = .eq := Std.ReflCmp.compare_self
      rw [List.cons_append, List.cons_append, compareComponents, hsame, ih]
      rfl

end FilePath

namespace BaseDirectory

variable {b : BaseDirectory} {names others : List String}

theorem components_below (h : AreNames names) :
    (b.below names).components = (b.lead ++ b.names.map .normal) ++ names.map .normal := by
  rw [below, components_spelled b.outset (areNames_below h), List.map_append, List.append_assoc]

/-- Paths below a directory are in the order of the paths from there. -/
theorem le_below (h : AreNames names) (h' : AreNames others) :
    (b.below names).le (b.below others) = (origin.below names).le (origin.below others) := by
  rw [FilePath.le, FilePath.le, FilePath.compare, FilePath.compare, components_below h,
    components_below h',
    components_below h, components_below h', compareComponents_append, compareComponents_append]

end BaseDirectory

namespace Disk

open BaseDirectory

variable {d : Disk} {sources : SourceSet} {b : BaseDirectory} {names : List String}

theorem spelledPlace_below (d : Disk) (hnames : AreNames names) :
    d.spelledPlace (b.below names) = d.spelledPlace (b.below []) ++ names := by
  rw [below, below, spelledPlace_spelled d b.outset (areNames_below hnames),
    spelledPlace_spelled d b.outset (areNames_below (by simp [AreNames])), List.append_nil,
    List.append_assoc]

/-- What a walk below the directory of the root lists is a file, if it can be read at all. -/
theorem isFile_of_candidate {settings : Settings} {text : String}
    (hfiles : d.sourceFiles sources.directory settings.ignore = .ok sources.candidates)
    (hdirectory : sources.directory = b.below []) (hnames : AreNames names)
    (member : origin.below names ∈ sources.candidates)
    (hread : d.readText (b.below names) = .ok text) : d.isFile (b.below names) = true := by
  obtain ⟨names', -, hnames', hpath, contents, hfile⟩ := of_mem_sourceFiles hfiles member
  obtain rfl : names = names' := below_inj hnames hnames' hpath
  obtain ⟨place, _, hlocate, -, -⟩ := exists_of_readText hread
  rw [hdirectory, ← spelledPlace_below d hnames, ← eq_spelledPlace_of_locate hlocate] at hfile
  rw [isFile_eq, contentsAt?_of_locate hlocate, FileTree.contents?_eq_some_iff.mpr hfile]
  rfl

/-- Below the directory of the root only source files are read. -/
theorem moduleText_below_of_not_mem (hdirectory : sources.directory = b.below [])
    (hnames : AreNames names) (h : origin.below names ∉ sources.candidates) :
    d.moduleText sources (b.below names) = .ok none := by
  simp [moduleText, hdirectory, below?_below hnames, ofComponents_map, h]

variable {settings : Settings}

theorem text_of_moduleText_below {found : Option String}
    (hfiles : d.sourceFiles sources.directory settings.ignore = .ok sources.candidates)
    (hdirectory : sources.directory = b.below [])
    (hnames : AreNames names) (h : d.moduleText sources (b.below names) = .ok found) :
    found = if origin.below names ∈ sources.candidates then (d.readText (b.below names)).toOption
      else none := by
  by_cases hmember : origin.below names ∈ sources.candidates
  · rw [if_pos hmember]
    simp only [moduleText, hdirectory, below?_below hnames, ofComponents_map] at h
    by_cases hfile : d.isFile (b.below names) = true
    · rw [if_neg (by simp [hmember, hfile]), read] at h
      cases hread : d.readText (b.below names) with
      | error problem =>
          rw [hread] at h
          cases h
      | ok contents =>
          rw [hread] at h
          exact (Except.ok.inj h).symm
    · rw [if_pos (by simp [hfile])] at h
      cases hread : d.readText (b.below names) with
      | error problem => exact (Except.ok.inj h).symm
      | ok contents =>
          exact absurd (isFile_of_candidate hfiles hdirectory hnames hmember hread) hfile
  · rw [moduleText_below_of_not_mem hdirectory hnames hmember] at h
    rw [if_neg hmember, Except.ok.inj h]

variable {text name : String}

/-- What the listed texts hold for a path below the directory of the root. -/
theorem textOf?_sourceTexts
    (hfiles : d.sourceFiles sources.directory settings.ignore = .ok sources.candidates)
    (hdirectory : sources.directory = b.below []) (hname : AreNames [name]) (hne : names ≠ []) :
    textOf? (d.sourceTexts sources (origin.below [name])) (origin.below names) =
      if origin.below names ∈ sources.candidates ++ [origin.below [name]] then
        (d.readText (b.below names)).toOption else none := by
  have hnormal : ∀ path ∈ sources.candidates ++ [origin.below [name]], path.normalize = path := by
    intro path member
    rcases List.mem_append.mp member with hcandidate | hlast
    · obtain ⟨names, -, hnames, rfl⟩ := exists_names_of_mem_sourceFiles hfiles hcandidate
      exact (isNormal_below hnames).normalize_eq
    · rw [List.mem_singleton.mp hlast]
      exact (isNormal_below hname).normalize_eq
  have hjoin : sources.directory.join (origin.below names) = b.below names := by
    rw [hdirectory, ← below_eq_join hne]
  let read : FilePath → Option String :=
    fun path => (d.readText (sources.directory.join path)).toOption
  rw [← hjoin, sourceTexts, textOf?_filterMap read hnormal]

/-- Each round of loading from the disk is a round of loading from the listed texts. -/
theorem simulates_sourceTexts
    (hfiles : d.sourceFiles sources.directory settings.ignore = .ok sources.candidates)
    (hdirectory : sources.directory = b.below []) (hname : AreNames [name])
    (hroot : sources.root = b.below [name]) (htext : d.readText sources.root = .ok text) :
    (d.crateLoader sources text).Simulates
      (SourceTable.ofList (d.sourceTexts sources (origin.below [name]))).loader b.relation
      Item.FoundByName where
  parse := rfl
  declares _ _ hplaced hitems := declaredModules hplaced hitems
  read := by
    rintro _ _ ⟨names, hne, hnames, rfl, rfl⟩ found hread
    have hlisted : (SourceTable.ofList (d.sourceTexts sources (origin.below [name]))).loader.read
        (origin.below names) = .ok (textOf? (d.sourceTexts sources (origin.below [name]))
          (origin.below names)) := by
      rw [← SourceTable.lookup_ofList]
      rfl
    rw [hlisted, textOf?_sourceTexts hfiles hdirectory hname hne]
    by_cases hsame : names = [name]
    · subst hsame
      rw [← hroot] at hread ⊢
      have hfound : some text = found := Except.ok.inj ((if_pos rfl).symm.trans hread)
      rw [if_pos (by simp), htext, ← hfound]
      rfl
    · have hroot' : b.below names ≠ sources.root := by
        rw [hroot]
        exact fun hpath => hsame (below_inj hnames hname hpath)
      have hlisted : origin.below names ∈ sources.candidates ++ [origin.below [name]] ↔
          origin.below names ∈ sources.candidates := by
        have hne : origin.below names ≠ origin.below [name] := fun hpath =>
          hsame (below_inj hnames hname hpath)
        simp [hne]
      have hmodule : d.moduleText sources (b.below names) = .ok found :=
        (if_neg hroot').symm.trans hread
      rw [text_of_moduleText_below hfiles hdirectory hnames hmodule]
      simp only [hlisted]

end Disk

namespace SourceFile

/-- The file, moved below a directory. -/
def under (directory : FilePath) (f : SourceFile) : SourceFile :=
  { f with path := directory.join f.path }

end SourceFile

/-- The crate, moved below a directory. -/
def Corpus.under (directory : FilePath) (c : Corpus) : Corpus :=
  ⟨c.files.map (SourceFile.under directory)⟩

namespace BaseDirectory

variable {b : BaseDirectory}

theorem eq_under_of_placed {p q : Placed} (h : b.relation.Placed p q) :
    p.file = q.file.under (b.below []) := by
  obtain ⟨⟨names, hne, -, hpath, hpath'⟩, -, hmodule, hitems, hisRoot⟩ := h
  obtain ⟨⟨path, module, items, isRoot⟩, directory⟩ := p
  obtain ⟨⟨path', module', items', isRoot'⟩, directory'⟩ := q
  simp only at hpath hpath' hmodule hitems hisRoot
  rw [SourceFile.under, hpath, hpath', hmodule, hitems, hisRoot, below_eq_join hne]

/-- Files in path order are moved in path order. -/
theorem mergeSort_under {placed placed' : List Placed}
    (h : List.Forall₂ b.relation.Placed placed placed') :
    (placed.map (·.file)).reverse.mergeSort (fun f g => f.path.le g.path) =
      ((placed'.map (·.file)).reverse.mergeSort fun f g => f.path.le g.path).map
        (SourceFile.under (b.below [])) := by
  have hfiles :
      placed.map (·.file) = (placed'.map (·.file)).map (SourceFile.under (b.below [])) := by
    rw [List.map_map, ← List.forall₂_eq_eq_eq, List.forall₂_map_left_iff,
      List.forall₂_map_right_iff]
    exact h.imp fun _ _ => eq_under_of_placed
  have hpaths : ∀ f ∈ (placed'.map (·.file)).reverse, ∃ names, names ≠ [] ∧ AreNames names ∧
      f.path = origin.below names := by
    have hplaced : List.Forall₂ (flip b.relation.Placed) placed' placed := h.flip
    have hnames :
        ∀ q ∈ placed', ∃ names, names ≠ [] ∧ AreNames names ∧ q.file.path = origin.below names :=
      ((List.forall₂_and_left _ _).mp (hplaced.imp fun q p hqp => by
        obtain ⟨⟨names, hne, hnames, -, hpath⟩, -⟩ := hqp
        exact ⟨⟨names, hne, hnames, hpath⟩, trivial⟩)).1
    intro f member
    obtain ⟨q, hq, rfl⟩ := List.mem_map.mp (List.mem_reverse.mp member)
    exact hnames q hq
  rw [hfiles, ← List.map_reverse, List.map_mergeSort]
  intro f hf g hg
  obtain ⟨names, hne, hnames, hpath⟩ := hpaths f hf
  obtain ⟨others, hne', hothers, hpath'⟩ := hpaths g hg
  have hmoved : ∀ {k : SourceFile} {names}, names ≠ [] → k.path = origin.below names →
      (k.under (b.below [])).path = b.below names := by
    intro k names hne hpath
    rw [below_eq_join hne, ← hpath]
    rfl
  rw [hmoved hne hpath, hmoved hne' hpath', hpath, hpath', le_below (b := b) hnames hothers]

end BaseDirectory

namespace Disk

open BaseDirectory

variable {d : Disk} {project : FilePath} {settings : Settings} {sources : SourceSet} {text : String}

theorem exists_base {p : FilePath} (h : p.IsNormal) : ∃ b : BaseDirectory, p = b.below [] := by
  obtain ⟨lead, names, hlead, hnames, rfl⟩ := h
  exact ⟨⟨lead, names, hlead, hnames⟩, by rw [below, List.append_nil]⟩

/-- A file other than the root is loaded as the file of a module. -/
theorem moduleText_of_loaded {placed : List Placed}
    (hloads : (d.crateLoader sources text).Loads sources.root placed) {p : Placed} (hp : p ∈ placed)
    (hroot : p.file.isRoot = false) :
    p.file.path.IsNormal ∧ ∃ contents, d.moduleText sources p.file.path = .ok (some contents) := by
  have hclosure := hloads.isModuleClosure
  obtain ⟨origin, horigin, hisRoot, -, hpath, -⟩ := hclosure.root
  constructor
  · cases hclosure.sound p hp with
    | root _ hisRoot _ =>
        rw [hroot] at hisRoot
        cases hisRoot
    | declared _ hdeclares hfile _ _ _ =>
        exact PendingModule.Declares.isNormal hdeclares _ (List.mem_of_find?_eq_some hfile)
  · have hother : p.file.path ≠ sources.root := by
      rw [← hpath]
      intro hsame
      rw [List.inj_on_of_nodup_map hclosure.distinct hp horigin hsame, hisRoot] at hroot
      cases hroot
    obtain ⟨contents, hread, -⟩ := hclosure.read p hp
    have hmodule :
        (d.crateLoader sources text).read p.file.path = d.moduleText sources p.file.path :=
      if_neg hother
    rw [Loader.text?, hmodule] at hread
    split at hread
    · next found hfound => exact ⟨contents, hread ▸ hfound⟩
    · cases hread

/-- What is loaded from below the directory of the root is one of the source files there, if its
path sets out as that of the directory does. -/
theorem exists_candidate {p : FilePath} (hdirectory : sources.directory.IsNormal) (hp : p.IsNormal)
    (houtset : p.outset = sources.directory.outset) {contents : String}
    (hmodule : d.moduleText sources p = .ok (some contents)) {base below : Place}
    (hbase : d.locate sources.directory = .ok base) (hbelow : below ≠ [])
    (hplace : d.locate p = .ok (base ++ below)) :
    ∃ q ∈ sources.candidates, p = sources.directory.join q := by
  obtain ⟨b, hb⟩ := exists_base hdirectory
  obtain ⟨lead, names, hlead, hnames, rfl⟩ := hp
  have hsame : lead = b.lead := by
    rw [hb, outset_spelled hlead hnames, BaseDirectory.below,
      outset_spelled b.outset (areNames_below (by simp [AreNames]))] at houtset
    exact houtset
  subst hsame
  have hnamesBelow : names = b.names ++ below := by
    have hspelled := eq_spelledPlace_of_locate hplace
    rw [eq_spelledPlace_of_locate hbase, hb, BaseDirectory.below, List.append_nil,
      spelledPlace_spelled d b.outset b.areNames, spelledPlace_spelled d hlead hnames,
      List.append_assoc] at hspelled
    exact (List.append_cancel_left hspelled).symm
  subst hnamesBelow
  by_cases hmember : origin.below below ∈ sources.candidates
  · exact ⟨_, hmember, by rw [hb, ← below_eq_join hbelow]; rfl⟩
  · have hnone := moduleText_below_of_not_mem (d := d) hb hnames.of_append.2 hmember
    cases Except.ok.inj (hnone.symm.trans hmodule)

/-- The listed texts start from the root of the crate. -/
theorem rootAmong_sourceTexts
    (hfiles : d.sourceFiles sources.directory settings.ignore = .ok sources.candidates)
    {b : BaseDirectory}
    (hdirectory : sources.directory = b.below []) {name : String} (hname : AreNames [name])
    (hroot : sources.root = b.below [name]) (htext : d.readText sources.root = .ok text)
    (hfirst : name = "lib.rs" ∨ name = "main.rs" ∧ origin.below ["lib.rs"] ∉ sources.candidates) :
    SourceTable.rootAmong (d.sourceTexts sources (origin.below [name])) = origin.below [name] := by
  have hlibrary := textOf?_sourceTexts hfiles hdirectory hname (List.cons_ne_nil "lib.rs" [])
  rw [SourceTable.rootAmong_eq, ← below_single, hlibrary]
  rcases hfirst with rfl | ⟨rfl, habsent⟩
  · have hpresent : ((d.readText (b.below ["lib.rs"])).toOption).isSome = true := by
      rw [← hroot, htext]
      rfl
    rw [if_pos (List.mem_append_right _ List.mem_cons_self), if_pos hpresent]
  · have hother : origin.below ["lib.rs"] ≠ origin.below ["main.rs"] := by
      rw [below_single, below_single]
      decide
    rw [if_neg (by simp [habsent, hother]), ← below_single]

/-- A loading from the disk is a loading from the listed texts, below the directory of the root. -/
theorem ofSources_sourceTexts
    (hfiles : d.sourceFiles sources.directory settings.ignore = .ok sources.candidates)
    {b : BaseDirectory}
    (hdirectory : sources.directory = b.below []) {name : String} (hname : AreNames [name])
    (hroot : sources.root = b.below [name]) (hlies : sources.directory = sources.root.directory)
    (htext : d.readText sources.root = .ok text)
    (hfirst : name = "lib.rs" ∨ name = "main.rs" ∧ origin.below ["lib.rs"] ∉ sources.candidates)
    {placed : List Placed} (hloads : (d.crateLoader sources text).Loads sources.root placed)
    (hitems : ∀ p ∈ placed, Item.FoundByName p.file.items) :
    ∃ c', Corpus.ofSources (d.sourceTexts sources (origin.below [name])) = .ok c' ∧
      (c'.under sources.directory).files =
        (placed.map (·.file)).reverse.mergeSort fun f g => f.path.le g.path := by
  have hrootRelated : b.relation.file sources.root (origin.below [name]) :=
    ⟨[name], by simp, hname, hroot, rfl⟩
  have hdirectoryRelated :
      b.relation.directory sources.root.directory (origin.below [name]).directory := by
    refine ⟨[], by simp [AreNames], hlies ▸ hdirectory, ?_⟩
    have hsingle : AreNames ([] ++ [name]) := hname
    exact directory_spelled_concat origin.outset hsingle
  obtain ⟨placed', hloads', hrelated⟩ :=
    (simulates_sourceTexts hfiles hdirectory hname hroot htext).loads hloads hrootRelated
      hdirectoryRelated hitems
  have hlisted : SourceTable.Loads (d.sourceTexts sources (origin.below [name])) placed' := by
    rw [SourceTable.Loads, rootAmong_sourceTexts hfiles hdirectory hname hroot htext hfirst]
    exact hloads'
  refine ⟨_, Corpus.ofSources_eq_ok_iff.mpr ⟨placed', hlisted, rfl⟩, ?_⟩
  rw [mergeSort_under hrelated, hdirectory]
  rfl

/-- A root that listed texts start from is a file of its own name. -/
theorem exists_name_of_root {root : FilePath} {candidates : List FilePath}
    (h : root ∈ SourceTable.rootNames) (hlibrary : root = ⟨"lib.rs"⟩ ∨ ⟨"lib.rs"⟩ ∉ candidates) :
    ∃ name, AreNames [name] ∧ root = origin.below [name] ∧
      (name = "lib.rs" ∨ name = "main.rs" ∧ origin.below ["lib.rs"] ∉ candidates) := by
  have hsingle : ∀ {name : String}, (Component.normal name).IsName → AreNames [name] := by
    simp [AreNames]
  simp only [SourceTable.rootNames, List.mem_cons, List.not_mem_nil, or_false] at h
  rcases h with rfl | rfl
  · exact ⟨"lib.rs", hsingle (by decide), (below_single _).symm, Or.inl rfl⟩
  · have habsent := hlibrary.resolve_left (by decide)
    exact ⟨"main.rs", hsingle (by decide), (below_single _).symm,
      Or.inr ⟨rfl, by rwa [below_single]⟩⟩

/-- A crate that is found on a disk is made up of its sources. A file that lies below the directory
of the root, other than the root itself, is one of the source files that a walk lists there, if its
path sets out as that of the directory does: at the root of the disk, or as many steps up from here.
Where modules are found by their names, and the root is what the listed texts start from, the crate
is that of the listed texts, moved below the directory. -/
theorem discover_agrees_with_sources {c : Corpus}
    (h : (d.discover project settings).result = .ok c) :
    ∃ sources, d.sourceSet project settings = .ok sources ∧
      (∀ f ∈ c.files, f.isRoot = false → f.path.outset = sources.directory.outset →
        ∀ base below, d.locate sources.directory = .ok base → below ≠ [] →
          d.locate f.path = .ok (base ++ below) →
          ∃ p ∈ sources.candidates, f.path = sources.directory.join p) ∧
      (c.FindsModulesByName → ∀ root ∈ SourceTable.rootNames,
        sources.root = sources.directory.join root →
        root = ⟨"lib.rs"⟩ ∨ ⟨"lib.rs"⟩ ∉ sources.candidates →
        ∃ c', Corpus.ofSources (d.sourceTexts sources root) = .ok c' ∧
        c = c'.under sources.directory) := by
  obtain ⟨sources, text, placed, hsources, htext, hloads, hfiles⟩ := discover_eq_ok_iff.mp h
  obtain ⟨-, -, -, hdirectory, hwalk⟩ := of_sourceSet hsources
  have hnormal : sources.directory.IsNormal := hdirectory ▸ (isNormal_root hsources).directory
  have hplaced : ∀ f ∈ c.files, ∃ p ∈ placed, p.file = f := by
    intro f hf
    rw [hfiles, List.mem_mergeSort, List.mem_reverse] at hf
    exact List.mem_map.mp hf
  refine ⟨sources, hsources, ?_, ?_⟩
  · intro f hf hisRoot houtset base below hbase hbelow hplace
    obtain ⟨p, hp, rfl⟩ := hplaced f hf
    obtain ⟨hpath, contents, hmodule⟩ := moduleText_of_loaded hloads hp hisRoot
    exact exists_candidate hnormal hpath houtset hmodule hbase hbelow hplace
  · intro hfound root hname hroot hlibrary
    obtain ⟨b, hb⟩ := exists_base hnormal
    obtain ⟨name, hsingle, rfl, hfirst⟩ := exists_name_of_root hname hlibrary
    have hrootBelow : sources.root = b.below [name] := by
      rw [hroot, hb, ← below_eq_join (by simp)]
    have hgood : ∀ p ∈ placed, Item.FoundByName p.file.items := by
      intro p hp
      obtain ⟨contents, -, hitems⟩ := hloads.isModuleClosure.read p hp
      refine ⟨hfound p.file ?_, Grammar.allSpelled_of_parseFile hitems⟩
      rw [hfiles, List.mem_mergeSort, List.mem_reverse]
      exact List.mem_map_of_mem hp
    obtain ⟨c', hcorpus, hsame⟩ :=
      ofSources_sourceTexts hwalk hb hsingle hrootBelow hdirectory htext
      hfirst hloads hgood
    refine ⟨c', hcorpus, congrArg Corpus.mk ?_⟩
    rw [hfiles, ← hsame]
    rfl

/-- A library with two modules beside its root. -/
def beside : Disk where
  tree := .ofTexts [(["x", "src", "a.rs"], ""), (["x", "src", "b.rs"], ""),
    (["x", "src", "lib.rs"], "mod a;\nmod b;\n")]
  here := ["x"]

def besideSettings : Settings :=
  { Settings.standard with ignore := ["b.rs"] }

def besideSources : SourceSet :=
  ⟨⟨"src/lib.rs"⟩, ⟨"src"⟩, [⟨"a.rs"⟩, ⟨"lib.rs"⟩]⟩

def besideItems : List Item :=
  [.submodule "a" [] none, .submodule "b" [] none]

theorem sourceSet_beside : beside.sourceSet ⟨"."⟩ besideSettings = .ok besideSources := by
  have hlocated : beside.crateRoot ⟨"."⟩ besideSettings.crateRoot = .ok ⟨"./src/lib.rs"⟩ := by
    decide +kernel
  have hplace : beside.locate ⟨"src"⟩ = .ok ["x", "src"] := by decide +kernel
  exact sourceSet_eq hlocated (by decide +kernel) (by decide +kernel)
    (sourceFiles_eq hplace (by decide +kernel) (by decide +kernel) (by decide +kernel))

theorem loads_beside : (beside.crateLoader besideSources "mod a;\nmod b;\n").Loads ⟨"src/lib.rs"⟩
    [⟨⟨⟨"src/a.rs"⟩, ⟨["crate", "a"]⟩, [], false⟩, ⟨"src/a"⟩⟩,
      .ofRoot ⟨"src/lib.rs"⟩ besideItems] := by
  let a : PendingModule :=
    ⟨⟨["crate", "a"]⟩, [(⟨"src/a.rs"⟩, ⟨"src/a"⟩), (⟨"src/a/mod.rs"⟩, ⟨"src/a"⟩)]⟩
  let hidden : PendingModule :=
    ⟨⟨["crate", "b"]⟩, [(⟨"src/b.rs"⟩, ⟨"src/b"⟩), (⟨"src/b/mod.rs"⟩, ⟨"src/b"⟩)]⟩
  have hdeclared : ((Placed.ofRoot ⟨"src/lib.rs"⟩ besideItems).file.declaredModules
      (FilePath.directory ⟨"src/lib.rs"⟩)).reverse = [hidden] ++ [a] := by decide +kernel
  have hitems : Grammar.parseFile "mod a;\nmod b;\n" = .ok besideItems :=
    Item.parse_of_sameAll (by decide +kernel)
  have hinner : Grammar.parseFile "" = .ok [] := Item.parse_of_sameAll (by decide +kernel)
  exact Loader.loads_pair rfl hitems a ⟨⟨"src/a.rs"⟩, ⟨"src/a"⟩, ""⟩ hdeclared (by decide +kernel)
    (by decide +kernel) hinner rfl

/-- The module that no pattern passes over is loaded from the list, and the other one is not. -/
theorem discover_agrees_in_beside :
    ∃ c, (beside.discover ⟨"."⟩ besideSettings).result = .ok c ∧ c.FindsModulesByName ∧
      (∃ p ∈ besideSources.candidates, ⟨"src/a.rs"⟩ = besideSources.directory.join p) ∧
      ∃ c', Corpus.ofSources (beside.sourceTexts besideSources ⟨"lib.rs"⟩) = .ok c' ∧
        c = c'.under besideSources.directory := by
  let inner : SourceFile := ⟨⟨"src/a.rs"⟩, ⟨["crate", "a"]⟩, [], false⟩
  let files : List SourceFile := [(Placed.ofRoot ⟨"src/lib.rs"⟩ besideItems).file, inner]
  let c : Corpus := ⟨files.mergeSort fun f g => f.path.le g.path⟩
  have hcorpus : (beside.discover ⟨"."⟩ besideSettings).result = .ok c :=
    discover_eq_ok_iff.mpr ⟨_, _, _, sourceSet_beside, Pass.ok_of_toOption (by decide +kernel),
      loads_beside, rfl⟩
  have hfiles : ∀ f, f ∈ c.files ↔ f ∈ files := fun f => List.mem_mergeSort
  have hfound : c.FindsModulesByName := by
    intro f hf
    have hall : ∀ f ∈ files, Item.findModulesByName f.items = true := by decide
    exact hall f ((hfiles f).mp hf)
  obtain ⟨sources, hsources, hbelow, hagrees⟩ := discover_agrees_with_sources hcorpus
  obtain rfl : besideSources = sources := Except.ok.inj (sourceSet_beside.symm.trans hsources)
  have hlisted :=
    hbelow inner ((hfiles inner).mpr (by simp [files])) rfl (by decide +kernel) ["x", "src"]
    ["a.rs"] (by decide +kernel) (by simp) (by decide +kernel)
  exact ⟨c, hcorpus, hfound, hlisted,
    hagrees hfound ⟨"lib.rs"⟩ (by decide) (by decide +kernel) (Or.inl rfl)⟩

/-- A library whose root names a file beside it by a way that leads out of the package and back. -/
def climbing : Disk where
  tree := .ofTexts [(["x", "src", "bin", "tool.rs"], ""),
    (["x", "src", "lib.rs"], "#[path = \"../../x/src/bin/tool.rs\"]\nmod tool;\n")]
  here := ["x"]

def climbingSources : SourceSet :=
  ⟨⟨"src/lib.rs"⟩, ⟨"src"⟩, [⟨"lib.rs"⟩]⟩

def climbingItems : List Item :=
  [.submodule "tool" [⟨false, ⟨false, ["path"], 1⟩, .value (some "../../x/src/bin/tool.rs")⟩] none]

theorem sourceSet_climbing : climbing.sourceSet ⟨"."⟩ .standard = .ok climbingSources := by
  have hlocated : climbing.crateRoot ⟨"."⟩ Settings.standard.crateRoot = .ok ⟨"./src/lib.rs"⟩ := by
    decide +kernel
  have hplace : climbing.locate ⟨"src"⟩ = .ok ["x", "src"] := by decide +kernel
  exact sourceSet_eq hlocated (by decide +kernel) (by decide +kernel)
    (sourceFiles_eq hplace (by decide +kernel) (by decide +kernel) (by decide +kernel))

/-- A file that a pattern passes over is loaded by a path that goes up further than the directory
does. -/
theorem discover_beyond_sources :
    climbing.sourceSet ⟨"."⟩ .standard = .ok climbingSources ∧
    ∃ c, (climbing.discover ⟨"."⟩ .standard).result = .ok c ∧
      ∃ f ∈ c.files, f.isRoot = false ∧ ∃ base below,
        climbing.locate climbingSources.directory = .ok base ∧ below ≠ [] ∧
        climbing.locate f.path = .ok (base ++ below) ∧
        ∀ p ∈ climbingSources.candidates,
          climbing.locate (climbingSources.directory.join p) ≠ .ok (base ++ below) := by
  let path : FilePath := ⟨"../x/src/bin/tool.rs"⟩
  let tool : PendingModule := ⟨⟨["crate", "tool"]⟩, [(path, ⟨"../x/src/bin"⟩)]⟩
  let file : SourceFile := ⟨path, ⟨["crate", "tool"]⟩, [], false⟩
  let text : String := "#[path = \"../../x/src/bin/tool.rs\"]\nmod tool;\n"
  have hloads : (climbing.crateLoader climbingSources text).Loads ⟨"src/lib.rs"⟩
      [⟨file, ⟨"../x/src/bin"⟩⟩, .ofRoot ⟨"src/lib.rs"⟩ climbingItems] := by
    have hdeclared : ((Placed.ofRoot ⟨"src/lib.rs"⟩ climbingItems).file.declaredModules
        (FilePath.directory ⟨"src/lib.rs"⟩)).reverse = [] ++ [tool] := by decide +kernel
    have hitems : Grammar.parseFile text = .ok climbingItems :=
      Item.parse_of_sameAll (by decide +kernel)
    have hinner : Grammar.parseFile "" = .ok [] := Item.parse_of_sameAll (by decide +kernel)
    exact Loader.loads_pair rfl hitems tool ⟨path, ⟨"../x/src/bin"⟩, ""⟩ hdeclared (by simp)
      (by decide +kernel) hinner rfl
  have hcorpus := discover_eq_ok_iff.mpr ⟨climbingSources, text, _, sourceSet_climbing,
    Pass.ok_of_toOption (by decide +kernel), hloads, rfl⟩
  refine ⟨sourceSet_climbing, _, hcorpus, file, ?_, rfl, ["x", "src"],
    ["bin", "tool.rs"], by decide +kernel, by simp, by decide +kernel, by decide +kernel⟩
  rw [List.mem_mergeSort]
  simp

end Disk

end MarkerIndex
