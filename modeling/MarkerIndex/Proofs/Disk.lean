import MarkerIndex.Program.Demand
import MarkerIndex.Proofs.SourceTable
import MarkerIndex.Proofs.Traversal
/-!
Where the paths of a disk lead, and what its operations leave alone. A path that can be followed
leads to the place that it spells, whatever else lies on the disk, and it goes on leading there as
long as no directory is taken away. Making directories changes no file.
-/

namespace MarkerIndex

/-- Goes on from a place by one component. -/
def Component.go (place : Place) : Component → Place
  | root => []
  | current => place
  | parent => place.dropLast
  | normal name => place ++ [name]

/-- A device that can be read has a name that is not hidden. -/
theorem FileNode.not_hidden_of_fits {place : Place} {contents : ByteArray}
    {refusal : Option FileProblem} (h : (special ⟨some contents, refusal⟩).fits place = true) :
    place.getLast?.bind (·.toList.head?) ≠ some '.' := by
  simp only [fits] at h
  split at h
  · simpa using h
  · cases h

namespace FileTree

variable {t t' t'' : FileTree} {place : Place}

@[simp] theorem node?_nil (t : FileTree) : t.node? [] = some .directory := rfl

theorem node?_of_ne_nil (t : FileTree) (h : place ≠ []) : t.node? place = t.entries.lookup place :=
  if_neg h

theorem node?_erase (h : t.node? place ≠ some .directory) (other : Place) :
    (t.erase place).node? other = if other = place then none else t.node? other := by
  have hentries : (t.erase place).entries = t.others place := by rw [erase, dif_neg h]
  by_cases hother : other = []
  · simp [hother, Ne.symm (ne_nil_of_node? h)]
  · rw [node?_of_ne_nil _ hother, node?_of_ne_nil _ hother, hentries]
    exact lookup_filter_ne t.entries place other

theorem entries_put {node : FileNode} (h : t.Admits place node) :
    (t.put place node).entries = t.others place ++ [(place, node)] := by
  rw [put, dif_pos h]

theorem node?_put {node : FileNode} (h : t.Admits place node) (other : Place) :
    (t.put place node).node? other = if other = place then some node else t.node? other := by
  by_cases hother : other = []
  · simp [hother, Ne.symm (ne_nil_of_node? h.free)]
  · rw [node?_of_ne_nil _ hother, node?_of_ne_nil _ hother, entries_put h, lookup_put]

@[simp] theorem faults_put (t : FileTree) (place : Place) (node : FileNode) :
    (t.put place node).faults = t.faults := by
  unfold put
  split <;> rfl

theorem contents?_eq_some_iff {contents : ByteArray} :
    t.contents? place = some contents ↔ t.node? place = some (.file contents) := by
  unfold contents?
  split
  · next found h => simp [h]
  · next h =>
      constructor
      · intro hsome
        cases hsome
      · intro hfile
        exact absurd hfile (h contents)

/-- The contents of files are told by what lies there. -/
theorem contents?_congr (h : t'.node? place = t.node? place) :
    t'.contents? place = t.contents? place := by
  rw [contents?, contents?, h]

/-- What is listed at a place lies there, since every place is listed once. -/
theorem node?_of_mem {node : FileNode} (hplace : place ≠ []) (member : (place, node) ∈ t.entries) :
    t.node? place = some node := by
  obtain ⟨before, after, hentries⟩ := List.append_of_mem member
  have honce := t.once
  rw [hentries, List.map_append, List.nodup_append] at honce
  rw [node?_of_ne_nil t hplace, List.lookup_eq_some_iff]
  refine ⟨before, after, hentries, fun entry hentry => ?_⟩
  have hne := honce.2.2 entry.1 (List.mem_map_of_mem hentry) place (by simp)
  simpa using hne.symm

/-- What lies in a tree lies in a directory. -/
theorem parent {node : FileNode} (hnode : t.node? place = some node) :
    t.node? place.dropLast = some .directory := by
  by_cases hplace : place = []
  · rw [hplace]
    rfl
  · exact t.parents _ (mem_entries_of_node? hplace hnode)

/-- The second tree has what the first has, and maybe further directories. -/
def GainsDirectories (t t' : FileTree) : Prop :=
  ∀ place, t'.node? place = t.node? place ∨ t.node? place = none ∧ t'.node? place = some .directory

namespace GainsDirectories

theorem refl (t : FileTree) : t.GainsDirectories t :=
  fun _ => Or.inl rfl

theorem trans (h : t.GainsDirectories t') (h' : t'.GainsDirectories t'') :
    t.GainsDirectories t'' := by
  intro place
  rcases h place with hsame | ⟨hnone, hnew⟩ <;> rcases h' place with hsame' | ⟨hnone', hnew'⟩
  · exact Or.inl (hsame'.trans hsame)
  · exact Or.inr ⟨hsame.symm.trans hnone', hnew'⟩
  · exact Or.inr ⟨hnone, hsame'.trans hnew⟩
  · rw [hnew] at hnone'
    cases hnone'

theorem contents? (h : t.GainsDirectories t') (place : Place) :
    t'.contents? place = t.contents? place := by
  rcases h place with hsame | ⟨hnone, hnew⟩
  · exact contents?_congr hsame
  · rw [FileTree.contents?, FileTree.contents?, hnone, hnew]

/-- A directory that is put where nothing lies, if it is admitted there. -/
theorem put (hnone : t.node? place = none) : t.GainsDirectories (t.put place .directory) := by
  by_cases hadmits : t.Admits place .directory
  · intro other
    rw [node?_put hadmits]
    by_cases h : other = place
    · exact Or.inr ⟨h ▸ hnone, if_pos h⟩
    · exact Or.inl (if_neg h)
  · rw [FileTree.put, dif_neg hadmits]
    exact refl t

end GainsDirectories

/-- The tree of some files. -/
def ofTexts (texts : List (Place × String)) : FileTree :=
  texts.foldl (fun t (place, text) =>
    (t.addDirectories place.dropLast).put place (.file text.toUTF8)) .empty

end FileTree

namespace Disk

variable {d d' d'' : Disk} {p : FilePath} {place : Place}

theorem spelledPlace_eq (d : Disk) (p : FilePath) :
    d.spelledPlace p = p.components.foldl Component.go d.here := by
  refine congrArg (fun step => p.components.foldl step d.here) ?_
  funext place c
  cases c <;> rfl

theorem spelledPlace_congr (h : d'.here = d.here) (p : FilePath) :
    d'.spelledPlace p = d.spelledPlace p := by
  rw [spelledPlace_eq, spelledPlace_eq, h]

/-- What a stretch of a path goes through is a directory. -/
theorem directory_of_step {t : FileTree} {name : String} {next : Place}
    (h : step t place name = .ok next) : t.node? place = some .directory := by
  unfold step at h
  split at h
  · cases h
  · cases h
  · cases h
  · assumption

/-- A stretch of a path leads where its name says. -/
theorem eq_go_of_step {t : FileTree} {name : List Char} {next : Place}
    (h : step t place (String.ofList name) = .ok next) :
    next = ((Component.ofName? name).map (Component.go place)).getD place := by
  rw [step, directory_of_step h] at h
  by_cases hdot : name = [] ∨ name = ['.']
  · have hstays : next = place := by
      rcases hdot with rfl | rfl <;> simpa using h.symm
    rw [hstays]
    rcases hdot with rfl | rfl <;> rfl
  · have hplain : ¬ (String.ofList name = "" ∨ String.ofList name = ".") := by
      simpa [← String.toList_inj] using hdot
    have hname : Component.ofName? name =
        if name = ['.', '.'] then some .parent else some (.normal (String.ofList name)) := by
      simp only [Component.ofName?, Bool.or_eq_true, decide_eq_true_eq, if_neg hdot]
    simp only [Bool.or_eq_true, decide_eq_true_eq, if_neg hplain] at h
    by_cases hup : name = ['.', '.']
    · subst hup
      rw [if_pos (by rfl)] at h
      split at h
      · cases h
      · cases h
        rfl
    · rw [if_neg (by simpa [← String.toList_inj] using hup)] at h
      cases h
      rw [hname, if_neg hup]
      rfl

theorem of_foldlM_step {t : FileTree} {names : List (List Char)} {next : Place}
    (h : (names.map String.ofList).foldlM (step t) place = .ok next) :
    next = (names.filterMap Component.ofName?).foldl Component.go place := by
  induction names generalizing place with
  | nil =>
      cases h
      rfl
  | cons name names ih =>
      obtain ⟨stop, hstep, hmore⟩ := Traversal.foldlM_cons_eq_ok_iff.mp h
      rw [ih hmore, eq_go_of_step hstep, List.filterMap_cons]
      cases Component.ofName? name <;> rfl

/-- What stands in front of its names tells where a path sets out from. -/
theorem spelledPlace_eq_names (d : Disk) (p : FilePath) : d.spelledPlace p =
    (FilePath.namesOf p.text.toList).foldl Component.go (if p.isAbsolute then [] else d.here) := by
  rw [spelledPlace_eq, FilePath.components, FilePath.componentsOf_eq, List.foldl_append]
  rcases FilePath.leadOf_cases p with ⟨habsolute, hlead⟩ | ⟨hrelative, hlead | hlead⟩
  · rw [hlead, if_pos habsolute]
    rfl
  all_goals
    rw [hlead, hrelative]
    rfl

/-- A path that can be followed leads to the place that it spells. -/
theorem eq_spelledPlace_of_locate (h : d.locate p = .ok place) : place = d.spelledPlace p := by
  unfold locate at h
  split at h
  · cases h
  · rw [of_foldlM_step h, spelledPlace_eq_names]
    rfl

/-- A stretch of a path leads to a directory, or to where one that it goes through admits a name. -/
theorem admits_of_step {t : FileTree} {name : List Char} {next : Place} {node : FileNode}
    (hslash : '/' ∉ name) (h : step t place (String.ofList name) = .ok next)
    (hnext : t.node? next ≠ some .directory) (hfits : node.fits next = true) :
    t.Admits next node := by
  have hplace := directory_of_step h
  have hgo := eq_go_of_step h
  cases hname : Component.ofName? name with
  | none =>
      rw [hname] at hgo
      exact absurd (hgo ▸ hplace) hnext
  | some c =>
      have hc := Component.isName_of_ofName? hslash hname
      rw [hname, Option.map_some, Option.getD_some] at hgo
      cases c with
      | root => exact absurd hc (by decide)
      | current => exact absurd hc (by decide)
      | parent => exact absurd (hgo ▸ FileTree.parent hplace) hnext
      | normal last =>
          obtain rfl : next = place ++ [last] := hgo
          exact ⟨by simpa using hc, by simpa using hplace, hnext, hfits⟩

theorem admits_of_foldlM_step {t : FileTree} {names : List (List Char)} {next : Place}
    {node : FileNode} (hslash : ∀ name ∈ names, '/' ∉ name)
    (h : (names.map String.ofList).foldlM (step t) place = .ok next)
    (hplace : t.node? place = some .directory) (hnext : t.node? next ≠ some .directory)
    (hfits : node.fits next = true) : t.Admits next node := by
  induction names generalizing place with
  | nil =>
      obtain rfl := Except.ok.inj h
      exact absurd hplace hnext
  | cons name names ih =>
      obtain ⟨hname, hnames⟩ := List.forall_mem_cons.mp hslash
      obtain ⟨stop, hstep, hmore⟩ := Traversal.foldlM_cons_eq_ok_iff.mp h
      cases names with
      | nil =>
          obtain rfl := Except.ok.inj hmore
          exact admits_of_step hname hstep hnext hfits
      | cons second names =>
          obtain ⟨_, hsecond, -⟩ := Traversal.foldlM_cons_eq_ok_iff.mp hmore
          exact ih hnames hmore (directory_of_step hsecond)

/-- Where a path leads, and no directory lies, something may come to lie. -/
theorem admits_of_locate {node : FileNode} (h : d.locate p = .ok place)
    (hplace : d.tree.node? place ≠ some .directory) (hfits : node.fits place = true) :
    d.tree.Admits place node := by
  unfold locate at h
  split at h
  · cases h
  · obtain ⟨first, names, hsplit⟩ :=
      List.exists_cons_of_ne_nil (FilePath.splitSlashes_ne_nil p.text.toList)
    have hslash := @FilePath.not_mem_of_mem_splitSlashes p.text.toList
    rw [hsplit] at h hslash
    obtain ⟨_, hfirst, -⟩ := Traversal.foldlM_cons_eq_ok_iff.mp h
    exact admits_of_foldlM_step hslash h (directory_of_step hfirst) hplace hfits

theorem foldlM_step_mono {t t' : FileTree} {names : List String} {next : Place}
    (hkept : ∀ stop, t.node? stop = some .directory → t'.node? stop = some .directory)
    (h : names.foldlM (step t) place = .ok next) : names.foldlM (step t') place = .ok next := by
  induction names generalizing place with
  | nil => exact h
  | cons name names ih =>
      obtain ⟨stop, hstep, hmore⟩ := Traversal.foldlM_cons_eq_ok_iff.mp h
      have hdirectory := directory_of_step hstep
      have hsame : step t' place name = .ok stop := by
        rw [← hstep, step, step, hdirectory, hkept _ hdirectory]
      exact Traversal.foldlM_cons_eq_ok_iff.mpr ⟨stop, hsame, ih hmore⟩

/-- Where all directories stay, so do the places that paths lead to. -/
theorem locate_mono (hhere : d'.here = d.here)
    (hkept : ∀ stop, d.tree.node? stop = some .directory → d'.tree.node? stop = some .directory)
    (h : d.locate p = .ok place) : d'.locate p = .ok place := by
  unfold locate at h ⊢
  split at h
  · cases h
  · next hempty =>
      rw [if_neg hempty, hhere]
      exact foldlM_step_mono hkept h

/-- The contents of the file that a path leads to, if it leads to one. -/
def contentsAt? (d : Disk) (p : FilePath) : Option ByteArray :=
  match d.node p with
  | .ok (.file contents) => some contents
  | _ => none

theorem contentsAt?_of_locate (h : d.locate p = .ok place) :
    d.contentsAt? p = d.tree.contents? place := by
  cases hnode : d.tree.node? place with
  | none => simp [contentsAt?, node, FileTree.contents?, h, hnode]
  | some found => cases found <;> simp [contentsAt?, node, FileTree.contents?, h, hnode]

theorem exists_of_contentsAt? {contents : ByteArray} (h : d.contentsAt? p = some contents) :
    ∃ place, d.locate p = .ok place ∧ d.tree.node? place = some (.file contents) := by
  cases hlocate : d.locate p with
  | error problem => simp [contentsAt?, node, hlocate] at h
  | ok place =>
      rw [contentsAt?_of_locate hlocate] at h
      exact ⟨place, rfl, FileTree.contents?_eq_some_iff.mp h⟩

theorem isFile_eq (d : Disk) (p : FilePath) : d.isFile p = (d.contentsAt? p).isSome := by
  unfold isFile contentsAt?
  cases d.node p with
  | error problem => rfl
  | ok found => cases found <;> rfl

theorem isFile_of_locate (h : d.locate p = .ok place) : d.isFile p = d.tree.isFile place := by
  rw [isFile_eq, contentsAt?_of_locate h, FileTree.isFile]

theorem readText_of_contentsAt? {contents : ByteArray} (h : d.contentsAt? p = some contents) :
    d.readText p = match String.fromUTF8? contents with
      | some text => .ok text
      | none => .error .notText := by
  obtain ⟨place, hlocate, hnode⟩ := exists_of_contentsAt? h
  have hbytes : d.readBytes p = .ok contents := by simp [readBytes, node, hlocate, hnode]
  cases htext : String.fromUTF8? contents <;> simp [readText, hbytes, htext]

/-- The second disk has what the first has, and maybe further directories. -/
structure GainsDirectories (d d' : Disk) : Prop where
  here : d'.here = d.here
  tree : d.tree.GainsDirectories d'.tree
  faults : d'.tree.faults = d.tree.faults

namespace GainsDirectories

theorem refl (d : Disk) : d.GainsDirectories d :=
  ⟨rfl, .refl d.tree, rfl⟩

theorem trans (h : d.GainsDirectories d') (h' : d'.GainsDirectories d'') : d.GainsDirectories d'' :=
  ⟨h'.here.trans h.here, h.tree.trans h'.tree, h'.faults.trans h.faults⟩

theorem spelledPlace (h : d.GainsDirectories d') (p : FilePath) :
    d'.spelledPlace p = d.spelledPlace p :=
  spelledPlace_congr h.here p

end GainsDirectories

theorem gains_makeDirectory (d : Disk) (p : FilePath) :
    d.GainsDirectories (d.makeDirectory p).disk := by
  unfold makeDirectory
  split
  · exact .refl d
  · next place _ =>
      split
      · exact .refl d
      · next hnew =>
          have hnone : d.tree.node? place = none := by simpa [FileTree.exists?] using hnew
          exact ⟨rfl, .put hnone, FileTree.faults_put d.tree place _⟩

/-- By induction on how many directories may still be made above. -/
theorem gains_makeDirectories (d : Disk) (fuel : Nat) (p : FilePath) :
    d.GainsDirectories (d.makeDirectories fuel p).disk := by
  induction fuel generalizing d p with
  | zero => exact .refl d
  | succ fuel ih =>
      unfold makeDirectories
      have hparents := ih d p.directory
      have hafter := hparents.trans (gains_makeDirectory _ p)
      split
      · exact .refl d
      · simp only
        split
        · split
          · exact hparents
          · split
            · exact hafter
            · exact hafter
        · split
          · exact gains_makeDirectory d p
          · exact gains_makeDirectory d p

theorem gains_ensure (d : Disk) (p : FilePath) : d.GainsDirectories (d.ensure p).disk := by
  rw [ensure, Attempt.during, ensureDirectory]
  split
  · exact .refl d
  · exact gains_makeDirectories d _ p

theorem withoutEnd_eq (h : ¬ p.endsWithSlash = true) : p.withoutEnd = p := by
  have hlast : p.text.toList.getLast? ≠ some '/' := by simpa [FilePath.endsWithSlash] using h
  have hkept : p.text.toList.reverse.dropWhile (· = '/') = p.text.toList.reverse := by
    rw [List.getLast?_eq_head?_reverse] at hlast
    cases hchars : p.text.toList.reverse with
    | nil => rfl
    | cons c cs =>
        rw [hchars] at hlast
        exact List.dropWhile_cons_of_neg (by simpa using hlast)
  unfold FilePath.withoutEnd
  rw [hkept]
  split
  · rfl
  · next hsplit =>
      rw [List.reverse_reverse, String.ofList_toList]

/-- A path leads to a place for a file: to a file, or to where nothing lies. -/
structure LeadsToFile (d : Disk) (p : FilePath) (place : Place) : Prop where
  locate : d.locate p = .ok place
  regular : d.tree.node? place = none ∨ ∃ contents, d.tree.node? place = some (.file contents)

namespace LeadsToFile

theorem not_directory (h : d.LeadsToFile p place) : d.tree.node? place ≠ some .directory := by
  rcases h.regular with hnone | ⟨contents, hfile⟩
  · simp [hnone]
  · simp [hfile]

theorem admits (h : d.LeadsToFile p place) (contents : ByteArray) :
    d.tree.Admits place (.file contents) :=
  admits_of_locate h.locate h.not_directory rfl

end LeadsToFile

/-- A disk on which a write was begun, and a file has the contents. -/
def withFile (d : Disk) (place : Place) (contents : ByteArray) : Disk :=
  { d with tree := d.tree.begun.put place (.file contents) }

/-- A disk on which a place was emptied. -/
def withoutFile (d : Disk) (place : Place) : Disk :=
  { d with tree := d.tree.erase place }

/-- The contents are given to a file as a whole, or the write breaks off. -/
theorem fill_cases (d : Disk) (place : Place) (contents : ByteArray) :
    d.fill place contents = ⟨.ok (), d.withFile place contents⟩ ∨
    ∃ fault, d.tree.fault? = some fault ∧ fault.taken < contents.size ∧
      d.fill place contents =
        ⟨.error fault.problem, d.withFile place (contents.extract 0 fault.taken)⟩ := by
  cases hfault : d.tree.fault? with
  | none =>
      simp only [fill, hfault]
      exact Or.inl rfl
  | some fault =>
      by_cases htaken : fault.taken < contents.size
      · simp only [fill, hfault, if_pos htaken]
        exact Or.inr ⟨fault, rfl, htaken, rfl⟩
      · simp only [fill, hfault, if_neg htaken]
        exact Or.inl rfl

/-- What is spelled as a directory is not written to. -/
theorem writeContents_of_endsWithSlash (d : Disk) (text : String) (hend : p.endsWithSlash = true) :
    ∃ problem, d.writeContents p text = d.fail problem := by
  unfold writeContents
  simp only [if_pos hend]
  split
  · exact ⟨_, rfl⟩
  · split <;> exact ⟨_, rfl⟩

/-- Giving a file its contents fails and changes nothing, or is left to a special file, or a write
is begun. -/
theorem writeContents_cases (d : Disk) (p : FilePath) (text : String) :
    (∃ problem, d.writeContents p text = d.fail problem) ∨
    (∃ place device, d.locate p = .ok place ∧ d.tree.node? place = some (.special device) ∧
      d.writeContents p text = ⟨.ok (), d⟩) ∨
    ∃ place, d.LeadsToFile p place ∧ d.writeContents p text = d.fill place text.toUTF8 := by
  by_cases hend : p.endsWithSlash = true
  · exact Or.inl (d.writeContents_of_endsWithSlash text hend)
  · unfold writeContents
    simp only [withoutEnd_eq hend, if_neg hend]
    split
    · exact Or.inl ⟨_, rfl⟩
    · next place hlocate =>
        split
        · exact Or.inl ⟨_, rfl⟩
        · next contents hfile =>
            exact Or.inr (Or.inr ⟨place, ⟨hlocate, Or.inr ⟨contents, hfile⟩⟩, rfl⟩)
        · next device hspecial =>
            split
            · exact Or.inl ⟨_, rfl⟩
            · exact Or.inr (Or.inl ⟨place, device, hlocate, hspecial, rfl⟩)
        · next hnone =>
            exact Or.inr (Or.inr ⟨place, ⟨hlocate, Or.inl hnone⟩, rfl⟩)

/-- All that writing a file may come to. Directories are made first; then the file cannot be opened,
or a special file takes the text, or a write is begun, which may break off. -/
inductive Writing (d : Disk) (p : FilePath) (text : String) : Change (Except Error Unit) → Prop
  | blocked {error : Error} {after : Disk} : d.GainsDirectories after →
      Writing d p text ⟨.error error, after⟩
  | taken {ready : Disk} {place : Place} {device : Device} : d.GainsDirectories ready →
      ready.locate p = .ok place → ready.tree.node? place = some (.special device) →
      Writing d p text ⟨.ok (), ready⟩
  | written {ready : Disk} {place : Place} : d.GainsDirectories ready →
      ready.LeadsToFile p place →
      Writing d p text ⟨.ok (), ready.withFile place text.toUTF8⟩
  | broken {ready : Disk} {place : Place} {fault : WriteFault} : d.GainsDirectories ready →
      ready.LeadsToFile p place → d.tree.fault? = some fault → fault.taken < text.toUTF8.size →
      Writing d p text ⟨.error (.fileSystem .write fault.problem),
        ready.withFile place (text.toUTF8.extract 0 fault.taken)⟩

theorem writing (d : Disk) (p : FilePath) (text : String) : Writing d p text (d.write p text) := by
  let ready : Change (Except Error Unit) :=
    if p.directory.text.isEmpty then ⟨.ok (), d⟩ else d.ensure p.directory
  have hready : d.GainsDirectories ready.disk := by
    by_cases hempty : p.directory.text.isEmpty = true
    · simp only [ready, if_pos hempty]
      exact .refl d
    · simp only [ready, if_neg hempty]
      exact gains_ensure d p.directory
  cases hresult : ready.result with
  | error error =>
      have hwrite : d.write p text = ⟨.error error, ready.disk⟩ := by
        unfold write
        dsimp only
        rw [hresult]
      rw [hwrite]
      exact .blocked hready
  | ok _ =>
      have hwrite : d.write p text = Attempt.during (ready.disk.writeContents p text) .write := by
        unfold write
        dsimp only
        rw [hresult]
      rw [hwrite]
      rcases writeContents_cases ready.disk p text with ⟨problem, hfails⟩ |
        ⟨place, device, hlocate, hnode, htaken⟩ | ⟨place, hleads, hfill⟩
      · rw [hfails]
        exact .blocked hready
      · rw [htaken]
        exact .taken hready hlocate hnode
      · rw [hfill]
        rcases fill_cases ready.disk place text.toUTF8 with hwhole | ⟨fault, hfault, htaken, hpart⟩
        · rw [hwhole]
          exact .written hready hleads
        · rw [hpart]
          rw [FileTree.fault?, hready.faults] at hfault
          exact .broken hready hleads hfault htaken

/-- A file that a path leads to can be removed. -/
theorem remove_eq {contents : ByteArray} (h : d.contentsAt? p = some contents) :
    ∃ place, d.LeadsToFile p place ∧ d.remove p = ⟨.ok (), d.withoutFile place⟩ := by
  obtain ⟨place, hlocate, hnode⟩ := exists_of_contentsAt? h
  refine ⟨place, ⟨hlocate, Or.inr ⟨contents, hnode⟩⟩, ?_⟩
  simp only [remove, Attempt.during, removeFile, hlocate, hnode]
  rfl

namespace LeadsToFile

variable {contents : ByteArray}

theorem node?_withFile (h : d.LeadsToFile p place) (other : Place) :
    (d.withFile place contents).tree.node? other =
      if other = place then some (.file contents) else d.tree.node? other := by
  have hadmits : d.tree.begun.Admits place (.file contents) :=
    let ⟨hname, hparent, hfree, hfits⟩ := h.admits contents
    ⟨hname, hparent, hfree, hfits⟩
  exact FileTree.node?_put hadmits other

theorem node?_withoutFile (h : d.LeadsToFile p place) (other : Place) :
    (d.withoutFile place).tree.node? other =
      if other = place then none else d.tree.node? other :=
  FileTree.node?_erase h.not_directory other

theorem contents?_withFile_self (h : d.LeadsToFile p place) :
    (d.withFile place contents).tree.contents? place = some contents := by
  rw [FileTree.contents?_eq_some_iff, h.node?_withFile, if_pos rfl]

theorem contents?_withoutFile_self (h : d.LeadsToFile p place) :
    (d.withoutFile place).tree.contents? place = none := by
  rw [FileTree.contents?, h.node?_withoutFile, if_pos rfl]

/-- The path leads there still when the file has other contents. -/
theorem contentsAt?_withFile (h : d.LeadsToFile p place) :
    (d.withFile place contents).contentsAt? p = some contents := by
  have hsame : (d.withFile place contents).locate p = .ok place := by
    refine locate_mono (d := d) rfl (fun stop hstop => ?_) h.locate
    rw [h.node?_withFile, if_neg (by rintro rfl; exact h.not_directory hstop)]
    exact hstop
  rw [contentsAt?_of_locate hsame, h.contents?_withFile_self]

theorem contentsAt?_withoutFile (h : d.LeadsToFile p place) :
    (d.withoutFile place).contentsAt? p = none := by
  have hsame : (d.withoutFile place).locate p = .ok place := by
    refine locate_mono (d := d) rfl (fun stop hstop => ?_) h.locate
    rw [h.node?_withoutFile, if_neg (by rintro rfl; exact h.not_directory hstop)]
    exact hstop
  rw [contentsAt?_of_locate hsame, h.contents?_withoutFile_self]

theorem contents?_withFile (h : d.LeadsToFile p place) {other : Place} (hother : other ≠ place) :
    (d.withFile place contents).tree.contents? other = d.tree.contents? other := by
  apply FileTree.contents?_congr
  rw [h.node?_withFile, if_neg hother]

theorem contents?_withoutFile (h : d.LeadsToFile p place) {other : Place}
    (hother : other ≠ place) :
    (d.withoutFile place).tree.contents? other = d.tree.contents? other := by
  apply FileTree.contents?_congr
  rw [h.node?_withoutFile, if_neg hother]

end LeadsToFile

end Disk

end MarkerIndex
