import MarkerIndex.Proofs.ListedSources
import MarkerIndex.Proofs.NormalPlace
/-!
A crate that is found on a disk, as the end of a loading. All files that a declaration may mean have
paths in normal form, and of those only finitely many lead to a file. So the limit on the number of
files is never met, and a crate that is found is what the declarations in its files lead to from its
root.
-/

namespace MarkerIndex

open FilePath

namespace PendingModule

theorem isNormal_candidatesOf (site : Site) (name : String) (path : Option String) :
    ∀ candidate ∈ candidatesOf site name path, candidate.1.IsNormal := by
  intro candidate member
  cases path with
  | some path =>
      obtain rfl := List.mem_singleton.mp member
      exact isNormal_normalize _
  | none =>
      simp only [candidatesOf, List.mem_cons, List.not_mem_nil, or_false] at member
      rcases member with rfl | rfl
      · exact isNormal_normalize _
      · exact (isNormal_normalize _).join (by decide)

/-- The files that a declaration may mean have paths in normal form. -/
theorem Declares.isNormal {site : Site} {items : List Item} {next : PendingModule}
    (h : Declares site items next) : ∀ candidate ∈ next.candidates, candidate.1.IsNormal := by
  induction h with
  | here _ => exact isNormal_candidatesOf _ _ _
  | inside _ _ ih => exact ih

end PendingModule

namespace Loader

variable {l l' : Loader}

/-- Where two loaders read the same from the paths in normal form that were not met yet, they load
the same. -/
theorem run_congr (hparse : l'.parse = l.parse) (limit : Nat) (visited : List FilePath)
    (pending : List PendingModule)
    (hread : ∀ path : FilePath, path.IsNormal → path ∉ visited → l'.read path = l.read path)
    (hpending : ∀ next ∈ pending, ∀ candidate ∈ next.candidates, candidate.1.IsNormal) :
    l'.run limit visited pending = l.run limit visited pending := by
  have hfind : ∀ {visited : List FilePath} {next : PendingModule} {pending : List PendingModule},
      (∀ path : FilePath, path.IsNormal → path ∉ visited → l'.read path = l.read path) →
      (∀ m ∈ next :: pending, ∀ candidate ∈ m.candidates, candidate.1.IsNormal) →
      l'.find visited next.candidates = l.find visited next.candidates :=
    fun hread hpending => find_congr (fun _ _ => Iff.rfl) fun candidate member =>
      hread candidate.1 (hpending _ List.mem_cons_self candidate member)
  fun_induction run l limit visited pending with
  | case1 => rw [run_nil]
  | case2 limit visited next pending error herror => rw [run, hfind hread hpending, herror]
  | case3 limit visited next pending hnone ih =>
      rw [run_skip ((hfind hread hpending).trans hnone)]
      exact ih hread fun m member => hpending m (List.mem_cons_of_mem _ member)
  | case4 visited next pending found hfound => rw [run, hfind hread hpending, hfound]
  | case5 visited next pending found hfound limit failure hfailure =>
      rw [run, hfind hread hpending, hfound]
      simp only [hparse, hfailure]
  | case6 visited next pending found hfound limit items hitems file declared later ih =>
      have hlater : l'.run limit (found.path :: visited) (declared ++ pending) = later := by
        refine ih (fun path hpath hunmet => hread path hpath fun member => ?_) fun m member => ?_
        · exact hunmet (List.mem_cons_of_mem _ member)
        · rcases List.mem_append.mp member with hnew | hold
          · exact (PendingModule.mem_declaredAll_iff.mp (List.mem_reverse.mp hnew)).isNormal
          · exact hpending m (List.mem_cons_of_mem _ hold)
      exact run_load ((hfind hread hpending).trans hfound) (hparse ▸ hitems) rfl hlater

/-- The loader as if no other files were there. -/
def among (l : Loader) (paths : List FilePath) : Loader :=
  { l with read := fun path => if path ∈ paths then l.read path else .ok none }

deriving instance DecidableEq for FoundFile

/-- A root that leads to one file, and beside it to modules without a file. -/
theorem loads_pair {root : FilePath} {text : String} {items inner : List Item}
    (htext : l.text? root = some text) (hitems : l.parse text = .ok items)
    {vacant : List PendingModule} (next : PendingModule) (found : FoundFile)
    (hdeclared : ((Placed.ofRoot root items).file.declaredModules root.directory).reverse =
      vacant ++ [next])
    (hvacant : ∀ m ∈ vacant, ∀ candidate ∈ m.candidates, l.read candidate.1 = .ok none)
    (hfind : l.find [root] next.candidates = .ok (some found))
    (hinner : l.parse found.text = .ok inner)
    (hlast : SourceFile.declaredModules ⟨found.path, next.module, inner, false⟩
      found.directory = []) :
    l.Loads root [⟨⟨found.path, next.module, inner, false⟩, found.directory⟩,
      .ofRoot root items] := by
  let origin : State := ⟨[], [.ofRoot root items]⟩
  have hstart : start root items = ⟨vacant ++ [next], origin.placed⟩ := by
    have hdirectory : (Placed.ofRoot root items).directory = root.directory := rfl
    rw [start, State.add, hdirectory, hdeclared, List.append_nil]
  have hskips :
      Relation.ReflTransGen l.Step ⟨vacant ++ [next], origin.placed⟩ ⟨[next], origin.placed⟩ :=
    steps_of_absent (s := ⟨[next], origin.placed⟩) hvacant
  have hload : l.Step ⟨[next], origin.placed⟩
      (origin.add ⟨⟨found.path, next.module, inner, false⟩, found.directory⟩) :=
    .load (s := origin) hfind hinner
  have hsteps := hskips.tail hload
  rw [← hstart] at hsteps
  have hend : (origin.add ⟨⟨found.path, next.module, inner, false⟩, found.directory⟩).pending =
      [] := by
    rw [State.add, hlast]
    rfl
  exact .ends htext hitems hsteps hend

end Loader

/-- A library that declares one module in a file, and nothing is declared there. -/
theorem Corpus.ofSources_pair {sources : List (FilePath × String)} {text : String}
    {items inner : List Item}
    (next : PendingModule) (found : FoundFile) (hroot : SourceTable.rootAmong sources = ⟨"lib.rs"⟩)
    (htext : (SourceTable.ofList sources).lookup ⟨"lib.rs"⟩ = some text)
    (hitems : Grammar.parseFile text = .ok items)
    (hinner : Grammar.parseFile found.text = .ok inner)
    (hdeclared : (Placed.ofRoot ⟨"lib.rs"⟩ items).file.declaredModules
      (FilePath.directory ⟨"lib.rs"⟩) = [next])
    (hfind : (SourceTable.ofList sources).loader.find [⟨"lib.rs"⟩] next.candidates =
      .ok (some found))
    (hlast : SourceFile.declaredModules ⟨found.path, next.module, inner, false⟩
      found.directory = [])
    (horder : (FilePath.mk "lib.rs").le found.path = true) :
    ofSources sources =
      .ok ⟨[(Placed.ofRoot ⟨"lib.rs"⟩ items).file, ⟨found.path, next.module, inner, false⟩]⟩ := by
  have hread : (SourceTable.ofList sources).loader.text? ⟨"lib.rs"⟩ = some text := htext
  have hpending : ((Placed.ofRoot ⟨"lib.rs"⟩ items).file.declaredModules
      (FilePath.directory ⟨"lib.rs"⟩)).reverse = [] ++ [next] := by
    rw [hdeclared]
    rfl
  have hloads := Loader.loads_pair hread hitems next found hpending (by simp) hfind hinner hlast
  refine ofSources_eq_ok_iff.mpr ⟨_, by rwa [SourceTable.Loads, hroot], ?_⟩
  rw [List.mergeSort_of_pairwise (by simpa [Placed.ofRoot] using horder)]
  rfl

namespace Disk

variable {d : Disk} {project : FilePath} {settings : Settings} {sources : SourceSet} {text : String}

/-- What is read from lies somewhere, and is no directory. -/
theorem exists_of_readText {p : FilePath} (h : d.readText p = .ok text) : ∃ place node,
    d.locate p = .ok place ∧ d.tree.node? place = some node ∧ node ≠ .directory := by
  cases hlocate : d.locate p with
  | error problem => simp [readText, readBytes, node, hlocate] at h
  | ok place =>
      cases hnode : d.tree.node? place with
      | none => simp [readText, readBytes, node, hlocate, hnode] at h
      | some found =>
          refine ⟨place, found, rfl, hnode, ?_⟩
          rintro rfl
          simp [readText, readBytes, node, hlocate, hnode] at h

/-- What is read under a hidden name is a file, since no device that can be read has such a name. -/
theorem isFile_of_readText_hidden {directory : FilePath} {name : String}
    (hname : (Component.normal name).IsName) (hhidden : name.toList.head? = some '.')
    (h : d.readText (directory / name) = .ok text) : d.isFile (directory / name) = true := by
  obtain ⟨place, found, hlocate, hnode, hne⟩ := exists_of_readText h
  cases found with
  | directory => exact absurd rfl hne
  | file contents =>
      rw [isFile_eq, contentsAt?_of_locate hlocate, FileTree.contents?_eq_some_iff.mpr hnode]
      rfl
  | special device =>
      have hplace := eq_spelledPlace_of_locate hlocate
      rw [spelledPlace_join d directory hname] at hplace
      have hfits := d.tree.devices _ (FileTree.mem_entries_of_node? (by simp [hplace]) hnode)
      obtain ⟨source, refusal⟩ := device
      cases source with
      | none => simp [readText, readBytes, node, hlocate, hnode] at h
      | some contents =>
          have hvisible := FileNode.not_hidden_of_fits hfits
          rw [hplace, List.getLast?_concat, Option.bind_some] at hvisible
          exact absurd hhidden hvisible

theorem moduleText_of_not_isFile {p : FilePath} (h : ¬ d.isFile p = true) (sources : SourceSet) :
    d.moduleText sources p = .ok none := by
  simp [moduleText, h]

/-- The loader of a crate whose root file was read before, whether it is a candidate or not. -/
def crateLoader (d : Disk) (sources : SourceSet) (text : String) : Loader where
  read path := if path = sources.root then .ok (some text) else d.moduleText sources path
  parse := Grammar.parseFile

/-- All that can be read by paths in normal form is among the spellings of the files. -/
theorem read_among {p : FilePath} (hp : p.IsNormal) (htext : d.readText sources.root = .ok text) :
    ((d.crateLoader sources text).among d.spellings).read p =
      (d.crateLoader sources text).read p := by
  by_cases hmember : p ∈ d.spellings
  · exact if_pos hmember
  · have hfile : ¬ d.isFile p = true := by
      rw [isFile_eq, Option.isSome_iff_exists]
      rintro ⟨contents, hcontents⟩
      obtain ⟨place, hlocate, hnode⟩ := exists_of_contentsAt? hcontents
      exact hmember (mem_spellings hp hlocate hnode (by simp))
    have hroot : p ≠ sources.root := by
      rintro rfl
      obtain ⟨place, node, hlocate, hnode, hne⟩ := exists_of_readText htext
      exact hmember (mem_spellings hp hlocate hnode hne)
    have hnone : (d.crateLoader sources text).read p = .ok none :=
      (if_neg hroot).trans (moduleText_of_not_isFile hfile sources)
    rw [hnone]
    exact if_neg hmember

theorem read_root (d : Disk) (sources : SourceSet) (text : String) :
    (d.crateLoader sources text).read sources.root = .ok (some text) :=
  if_pos rfl

theorem text?_root (hroot : sources.root.IsNormal) (htext : d.readText sources.root = .ok text) :
    ((d.crateLoader sources text).among d.spellings).text? sources.root = some text := by
  rw [Loader.text?, read_among hroot htext, read_root]

theorem mem_spellings_of_text (l : Loader) :
    ∀ path, ((l.among d.spellings).text? path).isSome = true → path ∈ d.spellings := by
  intro path hpath
  by_contra hmember
  have hnone : (l.among d.spellings).read path = .ok none := if_neg hmember
  simp [Loader.text?, hnone] at hpath

/-- The limit on the number of files leaves room for all that can be read. -/
theorem load_eq (htext : d.readText sources.root = .ok text) :
    d.load sources =
      ((d.crateLoader sources text).among d.spellings).load d.spellings.length
        sources.root text := by
  let l := (d.crateLoader sources text).among d.spellings
  have hread : ∀ path : FilePath, path.IsNormal → path ∉ [sources.root] →
      l.read path = (d.loader sources).read path := by
    intro path hpath hunmet
    have hne : path ≠ sources.root := by simpa using hunmet
    exact (read_among hpath htext).trans (if_neg hne)
  have hload : d.load sources = (d.loader sources).load d.loadLimit sources.root text := by
    have hreads : d.read sources.root = .ok text := by
      rw [read, htext]
      rfl
    rw [load, hreads]
  have hparse : l.parse = (d.loader sources).parse := rfl
  rw [hload, length_spellings]
  unfold Loader.load
  rw [hparse]
  split
  · rfl
  · next items _ =>
      have hrun := Loader.run_congr hparse d.loadLimit [sources.root]
        ((Placed.ofRoot sources.root items).file.declaredModules sources.root.directory).reverse
          hread
        fun next member =>
          (PendingModule.mem_declaredAll_iff.mp (List.mem_reverse.mp member)).isNormal
      exact congrArg (fun later => Loading.mk (_ :: later.loaded) later.problem) hrun.symm

/-- The limit on the number of files is never met. -/
theorem load_within_limit (d : Disk) (sources : SourceSet) (file : FilePath) :
    (d.load sources).problem ≠ some (.beyondLimit file) := by
  cases htext : d.readText sources.root with
  | error problem =>
      have hfails : d.read sources.root = .error (.fileSystem .read problem) := by
        rw [read, htext]
        rfl
      simp [load, hfails]
  | ok text =>
      rw [load_eq htext]
      exact Loader.load_within_limit (mem_spellings_of_text _) le_rfl sources.root text file

/-- What can be read of the files is all that counts for the end of a loading. -/
theorem loads_among_iff (hroot : sources.root.IsNormal) (htext : d.readText sources.root = .ok text)
    {placed : List Placed} :
    ((d.crateLoader sources text).among d.spellings).Loads sources.root placed ↔
      (d.crateLoader sources text).Loads sources.root placed := by
  have hread : ∀ p ∈ placed, ∀ next, p.Declares next → ∀ candidate ∈ next.candidates,
      ((d.crateLoader sources text).among d.spellings).read candidate.1 =
        (d.crateLoader sources text).read candidate.1 :=
    fun p _ next hdeclares candidate hcandidate =>
      read_among (PendingModule.Declares.isNormal hdeclares candidate hcandidate) htext
  constructor
  · intro h
    exact h.of_reads rfl (read_among hroot htext).symm fun p hp next hdeclares
      candidate hcandidate =>
      (hread p hp next hdeclares candidate hcandidate).symm
  · exact fun h => h.of_reads rfl (read_among hroot htext) hread

theorem exists_of_map_ok {ε α β : Type} {f : α → β} {x : Except ε α} {b : β}
    (h : x.map f = .ok b) : ∃ a, x = .ok a ∧ f a = b := by
  cases x with
  | error error => cases h
  | ok a => exact ⟨a, rfl, Except.ok.inj h⟩

/-- What the sources of a project are: its root in normal form, and what a walk finds beside it. -/
theorem of_sourceSet (h : d.sourceSet project settings = .ok sources) :
    ∃ located, d.crateRoot project settings.crateRoot = .ok located ∧
    sources.root = located.normalize ∧
      sources.directory = sources.root.directory ∧
      d.sourceFiles sources.directory settings.ignore = .ok sources.candidates := by
  unfold sourceSet at h
  split at h
  · cases h
  · next located hlocated =>
      obtain ⟨candidates, hfiles, hsources⟩ := exists_of_map_ok h
      subst hsources
      refine ⟨located, hlocated, ?_⟩
      dsimp only
      exact ⟨rfl, rfl, hfiles⟩

theorem isFile_of_crateRoot {named : Option FilePath} {located : FilePath}
    (h : d.crateRoot project named = .ok located) : d.isFile located = true := by
  unfold crateRoot at h
  split at h
  · dsimp only at h
    split at h
    · next hfile =>
        obtain rfl := Except.ok.inj h
        exact hfile
    · cases h
  · split at h
    · next path hfound =>
        obtain rfl := Except.ok.inj h
        exact List.find?_some hfound
    · cases h

theorem isNormal_root (h : d.sourceSet project settings = .ok sources) : sources.root.IsNormal := by
  obtain ⟨located, -, hroot, -⟩ := of_sourceSet h
  exact hroot ▸ isNormal_normalize located

/-- A crate can be loaded just when a loading from its root comes to an end. -/
theorem corpus_load_eq_ok_iff (hroot : sources.root.IsNormal) {c : Corpus} :
    (d.load sources).corpus = .ok c ↔ ∃ text placed, d.readText sources.root = .ok text ∧
      (d.crateLoader sources text).Loads sources.root placed ∧
      c.files = (placed.map (·.file)).reverse.mergeSort fun f g => f.path.le g.path := by
  constructor
  · intro h
    cases htext : d.readText sources.root with
    | error problem =>
        have hfails : d.read sources.root = .error (.fileSystem .read problem) := by
          rw [read, htext]
          rfl
        rw [load, hfails] at h
        cases h
    | ok text =>
        rw [load_eq htext] at h
        obtain ⟨hthrough, hfiles⟩ := Loading.of_corpus h
        obtain ⟨items, finish, hitems, hsteps, hend, hplaced⟩ := Loader.load_ends hthrough
        have hloads := (loads_among_iff hroot htext).mp
          (.ends (text?_root hroot htext) hitems hsteps hend)
        exact ⟨text, finish.placed, rfl, hloads, by rw [hfiles, hplaced, List.reverse_reverse]⟩
  · rintro ⟨text, placed, htext, hloads, hfiles⟩
    rw [load_eq htext, Loader.load_of_loads (mem_spellings_of_text _) le_rfl
      ((loads_among_iff hroot htext).mpr hloads) (text?_root hroot htext)]
    simp only [Loading.corpus, ← hfiles]

/-- A crate is found just when its sources are, and a loading from its root comes to an end. -/
theorem discover_eq_ok_iff {c : Corpus} : (d.discover project settings).result = .ok c ↔
    ∃ sources text placed, d.sourceSet project settings = .ok sources ∧
      d.readText sources.root = .ok text ∧ (d.crateLoader sources text).Loads sources.root placed ∧
      c.files = (placed.map (·.file)).reverse.mergeSort fun f g => f.path.le g.path := by
  constructor
  · intro h
    cases hsources : d.sourceSet project settings with
    | error error =>
        rw [discover, hsources] at h
        cases h
    | ok sources =>
        rw [discover, hsources] at h
        obtain ⟨text, placed, hloads⟩ := (corpus_load_eq_ok_iff (isNormal_root hsources)).mp h
        exact ⟨sources, text, placed, rfl, hloads⟩
  · rintro ⟨sources, text, placed, hsources, hloads⟩
    rw [discover, hsources]
    exact (corpus_load_eq_ok_iff (isNormal_root hsources)).mpr ⟨text, placed, hloads⟩

/-- A crate whose files are loaded in the opposite of path order. -/
theorem discover_eq_ok {placed : List Placed} {files : List SourceFile}
    (hsources : d.sourceSet project settings = .ok sources)
    (htext : d.readText sources.root = .ok text)
    (hloads : (d.crateLoader sources text).Loads sources.root placed)
    (hfiles : (placed.map (·.file)).reverse = files)
    (hsorted : files.Pairwise fun f g => f.path.le g.path = true) :
    (d.discover project settings).result = .ok ⟨files⟩ := by
  refine discover_eq_ok_iff.mpr ⟨sources, text, placed, hsources, htext, hloads, ?_⟩
  rw [hfiles, List.mergeSort_of_pairwise hsorted]

/-- What a walk lists, if that is in path order already. -/
theorem sourceFiles_eq {p : FilePath} {place : Place} {ignore : List String} {found : List FilePath}
    (hplace : d.locate p = .ok place) (hexists : d.tree.exists? place = true)
    (hfound : (d.tree.reachedFiles place).filter (·.isSource ignore) = found)
    (hsorted : found.Pairwise fun p q => p.le q = true) : d.sourceFiles p ignore = .ok found := by
  simp only [sourceFiles, hplace, hexists, ↓reduceIte, hfound, List.mergeSort_of_pairwise hsorted]

theorem sourceSet_eq {located root directory : FilePath} {candidates : List FilePath}
    (hlocated : d.crateRoot project settings.crateRoot = .ok located)
    (hroot : located.normalize = root)
    (hdirectory : root.directory = directory)
    (hfiles : d.sourceFiles directory settings.ignore = .ok candidates) :
    d.sourceSet project settings = .ok ⟨root, directory, candidates⟩ := by
  rw [sourceSet, hlocated]
  simp only [hroot, hdirectory, hfiles]
  rfl

end Disk

end MarkerIndex
