import MarkerIndex.Proofs.ItemPath
import MarkerIndex.Proofs.KnownItems
import MarkerIndex.Proofs.Session
import MarkerIndex.Proofs.SourceTable
import MarkerIndex.Proofs.Table
import Mathlib.Data.Prod.Lex
import Mathlib.Logic.Relation
/-!
Loading follows the declarations of modules without a body, and the files that it loads are the
closure of these declarations. The loop takes one pending declaration at a time: it drops it, where
its file was loaded before or is not there, or loads a file that was not loaded yet. So it ends for
every finite set of files, whatever they declare. What is true of the loaded and the pending at
every step makes up the closure once nothing is pending.
-/

namespace MarkerIndex

namespace PendingModule

/-- The place of declarations inside a module that is written in place. -/
def Site.inside (site : Site) (rawName : String) (attributes : List Attribute) : Site :=
  let name := Text.unraw rawName
  { site with
    module := site.module.join name
    directory := site.directory / (attributes.findSome? Attribute.pathValue?).getD name
    inline := true }

/-- Items that declare a module without a body, at any depth of modules written in place. -/
inductive Declares : Site → List Item → PendingModule → Prop
  | here {site : Site} {items : List Item} {rawName : String} {attributes : List Attribute} :
      .submodule rawName attributes none ∈ items →
      Declares site items
        ⟨site.module.join (Text.unraw rawName),
          candidatesOf site (Text.unraw rawName) (attributes.findSome? Attribute.pathValue?)⟩
  | inside {site : Site} {items nested : List Item} {rawName : String}
      {attributes : List Attribute} {next : PendingModule} :
      .submodule rawName attributes (some nested) ∈ items →
      Declares (site.inside rawName attributes) nested next →
      Declares site items next

theorem mem_declaredAll {site : Site} {items : List Item} {next : PendingModule} :
    next ∈ declaredAll site items ↔ ∃ item ∈ items, next ∈ declared site item := by
  induction items with
  | nil => simp [declaredAll]
  | cons item items ih => simp [declaredAll, ih]

theorem mem_declared_iff {site : Site} {item : Item} {next : PendingModule} :
    next ∈ declared site item ↔
    (∃ rawName attributes, item = .submodule rawName attributes none ∧
      next = ⟨site.module.join (Text.unraw rawName),
        candidatesOf site (Text.unraw rawName) (attributes.findSome? Attribute.pathValue?)⟩) ∨
    ∃ rawName attributes nested, item = .submodule rawName attributes (some nested) ∧
      next ∈ declaredAll (site.inside rawName attributes) nested := by
  cases item with
  | submodule rawName attributes content =>
      cases content with
      | none =>
          simp only [declared, List.mem_singleton]
          refine ⟨fun h => Or.inl ⟨rawName, attributes, rfl, h⟩, ?_⟩
          rintro (⟨_, _, ⟨⟩, h⟩ | ⟨_, _, _, ⟨⟩, _⟩)
          exact h
      | some nested =>
          refine ⟨fun h => Or.inr ⟨rawName, attributes, nested, rfl,
            by simpa only [declared, Site.inside] using h⟩, ?_⟩
          rintro (⟨_, _, ⟨⟩, _⟩ | ⟨_, _, _, ⟨⟩, h⟩)
          simpa only [declared, Site.inside] using h
  | _ => simp [declared]

theorem declares_of_mem_declaredAll {site : Site} {items : List Item} {next : PendingModule}
    (h : next ∈ declaredAll site items) : Declares site items next := by
  obtain ⟨item, hitem, h⟩ := mem_declaredAll.mp h
  rcases mem_declared_iff.mp h with
      ⟨rawName, attributes, rfl, rfl⟩ | ⟨rawName, attributes, nested, rfl, h⟩
  · exact .here hitem
  · exact .inside hitem (declares_of_mem_declaredAll h)
termination_by sizeOf items
decreasing_by exact Item.sizeOf_lt_of_submodule hitem

/-- The walk of the loader finds the declarations of modules without a body, and nothing else. -/
theorem mem_declaredAll_iff {site : Site} {items : List Item} {next : PendingModule} :
    next ∈ declaredAll site items ↔ Declares site items next := by
  constructor
  · exact declares_of_mem_declaredAll
  · intro h
    induction h with
    | here member => exact mem_declaredAll.mpr ⟨_, member, by simp [declared]⟩
    | inside member _ ih =>
        exact mem_declaredAll.mpr ⟨_, member, by simpa [declared, Site.inside] using ih⟩

/-- A declared module lies one name below another. -/
theorem Declares.exists_parent {site : Site} {items : List Item} {next : PendingModule}
    (h : Declares site items next) (hsite : site.module.segments ≠ []) :
    ∃ (above : ItemPath) (name : String), next.module = above.join name ∧ above.segments ≠ [] := by
  induction h with
  | here _ => exact ⟨_, _, rfl, hsite⟩
  | inside _ _ ih => exact ih (by simp [Site.inside])

/-- The first candidate of a declared module that there is a text for. -/
def file? (text? : FilePath → Option String) (next : PendingModule) :
    Option (FilePath × FilePath) :=
  next.candidates.find? fun candidate => (text? candidate.1).isSome

end PendingModule

/-- A loaded file with the directory that its own modules lie in. -/
structure Placed where
  file : SourceFile
  directory : FilePath

namespace Placed

def ofRoot (path : FilePath) (items : List Item) : Placed :=
  ⟨⟨path, .crateRoot, items, true⟩, path.directory⟩

/-- The file declares a module without a body. -/
def Declares (p : Placed) (next : PendingModule) : Prop :=
  PendingModule.Declares ⟨p.file.module, p.file.path.directory, p.directory, false⟩
    p.file.items next

theorem mem_declaredModules_iff {p : Placed} {next : PendingModule} :
    next ∈ p.file.declaredModules p.directory ↔ p.Declares next :=
  PendingModule.mem_declaredAll_iff

/-- A loaded file that declarations of loaded files lead to from the root. Each of them stands for
the first of its candidates that there is a text for, and gives the file its module. -/
inductive FromRoot (text? : FilePath → Option String) (placed : List Placed) : Placed → Prop
  | root {p : Placed} : p ∈ placed → p.file.isRoot = true → p.file.module = .crateRoot →
      FromRoot text? placed p
  | declared {q p : Placed} {next : PendingModule} : FromRoot text? placed q → q.Declares next →
      next.file? text? = some (p.file.path, p.directory) → p.file.module = next.module →
      p.file.isRoot = false → p ∈ placed → FromRoot text? placed p

theorem FromRoot.mono {text? : FilePath → Option String} {placed more : List Placed}
    (hsub : placed ⊆ more) {p : Placed} (h : FromRoot text? placed p) : FromRoot text? more p := by
  induction h with
  | root member hroot hmodule => exact .root (hsub member) hroot hmodule
  | declared _ hdeclares hfile hmodule hinner member ih =>
      exact .declared ih hdeclares hfile hmodule hinner (hsub member)

theorem FromRoot.segments_ne_nil {text? : FilePath → Option String} {placed : List Placed}
    {p : Placed} (h : FromRoot text? placed p) : p.file.module.segments ≠ [] := by
  induction h with
  | root _ _ hmodule => simp [hmodule, ItemPath.crateRoot]
  | declared _ hdeclares _ hmodule _ _ ih =>
      obtain ⟨above, name, hjoin, -⟩ := PendingModule.Declares.exists_parent hdeclares ih
      simp [hmodule, hjoin]

/-- The root of the crate is the only file for the module of the root. -/
theorem FromRoot.isRoot_of_module {text? : FilePath → Option String} {placed : List Placed}
    {p : Placed} (h : FromRoot text? placed p) (hmodule : p.file.module = .crateRoot) :
    p.file.isRoot = true := by
  cases h with
  | root _ hroot _ => exact hroot
  | declared hfrom hdeclares _ hnext _ _ =>
      obtain ⟨above, name, hjoin, habove⟩ :=
        PendingModule.Declares.exists_parent hdeclares hfrom.segments_ne_nil
      exact absurd (ItemPath.segments_eq_nil_of_join_eq_crateRoot
        (hjoin.symm.trans (hnext.symm.trans hmodule))) habove

end Placed

namespace Loader

/-- The text of a file, if it can be read. -/
def text? (l : Loader) (path : FilePath) : Option String :=
  match l.read path with
  | .ok text => text
  | .error _ => none

section

variable {l : Loader} {visited : List FilePath} {candidates : List (FilePath × FilePath)}
  {found : FoundFile}

/-- What a search finds was not loaded before. -/
theorem fresh_of_find (h : l.find visited candidates = .ok (some found)) :
    l.text? found.path = some found.text ∧ found.path ∉ visited := by
  fun_induction find l visited candidates with
  | case4 path directory others hfresh text hread =>
      simp only [Except.ok.injEq, Option.some.injEq] at h
      subst h
      exact ⟨by simp [text?, hread], by simpa using hfresh⟩
  | case5 path directory others hfresh hread ih => exact ih h
  | _ => simp at h

/-- What a search finds is the first candidate that there is a text for. -/
theorem find?_of_find (h : l.find visited candidates = .ok (some found)) :
    candidates.find? (fun candidate => (l.text? candidate.1).isSome) =
      some (found.path, found.directory) := by
  fun_induction find l visited candidates with
  | case4 path directory others hfresh text hread =>
      simp only [Except.ok.injEq, Option.some.injEq] at h
      subst h
      simp [text?, hread]
  | case5 path directory others hfresh hread ih =>
      rw [List.find?_cons_of_neg (by simp [text?, hread])]
      exact ih h
  | _ => simp at h

/-- Where all loaded files have a text, a search that finds nothing has met one of them, if any
candidate has a text. -/
theorem visited_of_find (hvisited : ∀ path ∈ visited, (l.text? path).isSome = true)
    (h : l.find visited candidates = .ok none) {candidate : FilePath × FilePath}
    (hfirst : candidates.find? (fun candidate => (l.text? candidate.1).isSome) = some candidate) :
    candidate.1 ∈ visited := by
  fun_induction find l visited candidates with
  | case2 path directory others hmet =>
      have hmember : path ∈ visited := by simpa using hmet
      rw [List.find?_cons_of_pos (by simpa using hvisited path hmember)] at hfirst
      cases hfirst
      exact hmember
  | case5 path directory others hfresh hread ih =>
      rw [List.find?_cons_of_neg (by simp [text?, hread])] at hfirst
      exact ih h hfirst
  | _ => simp at h hfirst

end

section

variable {l : Loader} {limit : Nat} {visited : List FilePath} {next : PendingModule}
  {pending : List PendingModule}

theorem run_nil : l.run limit visited [] = ⟨[], none⟩ := by rw [run]

theorem run_skip (h : l.find visited next.candidates = .ok none) :
    l.run limit visited (next :: pending) = l.run limit visited pending := by
  rw [run, h]

theorem run_load {found : FoundFile} {file : SourceFile} {later : Loading}
    (hfind : l.find visited next.candidates = .ok (some found))
    (hparse : l.parse found.text = .ok file.items)
    (hfile : file = ⟨found.path, next.module, file.items, false⟩)
    (hlater : l.run limit (found.path :: visited)
      ((file.declaredModules found.directory).reverse ++ pending) = later) :
    l.run (limit + 1) visited (next :: pending) = ⟨file :: later.loaded, later.problem⟩ := by
  rw [run, hfind]
  simp only [hparse, ← hfile, hlater]

end

/-- What is pending, the next first, and what is loaded, the newest first. -/
structure State where
  pending : List PendingModule
  placed : List Placed

namespace State

def visited (s : State) : List FilePath :=
  s.placed.map (·.file.path)

/-- What a file declares is looked for before what is pending, the last declaration first. -/
def add (s : State) (p : Placed) : State :=
  ⟨(p.file.declaredModules p.directory).reverse ++ s.pending, p :: s.placed⟩

@[simp] theorem visited_add (s : State) (p : Placed) :
    (s.add p).visited = p.file.path :: s.visited := rfl

end State

/-- One round of the loop: the next declaration is dropped, or replaced by those of its file. -/
inductive Step (l : Loader) : State → State → Prop
  | skip {s : State} {next : PendingModule} :
      l.find s.visited next.candidates = .ok none →
      Step l ⟨next :: s.pending, s.placed⟩ s
  | load {s : State} {next : PendingModule} {found : FoundFile} {items : List Item} :
      l.find s.visited next.candidates = .ok (some found) → l.parse found.text = .ok items →
      Step l ⟨next :: s.pending, s.placed⟩
        (s.add ⟨⟨found.path, next.module, items, false⟩, found.directory⟩)

/-- The loading of a root file before the first round. -/
def start (root : FilePath) (items : List Item) : State :=
  State.add ⟨[], []⟩ (.ofRoot root items)

/-- How many of some files were not loaded yet. -/
def unread (paths visited : List FilePath) : Nat :=
  (paths.filter (· ∉ visited)).length

theorem unread_cons_lt {paths visited : List FilePath} {path : FilePath} (hpath : path ∈ paths)
    (hfresh : path ∉ visited) : unread paths (path :: visited) < unread paths visited := by
  have hfilter : paths.filter (· ∉ path :: visited) =
      (paths.filter (· ∉ visited)).filter (· ≠ path) := by
    simp [List.filter_filter]
  rw [unread, unread, hfilter]
  exact List.length_filter_lt_length_iff_exists.mpr
    ⟨path, List.mem_filter.mpr ⟨hpath, by simpa using hfresh⟩, by simp⟩

section

variable {l : Loader} {paths : List FilePath}

/-- Only finitely many files can be read, so the loop ends, from wherever it is entered. -/
theorem step_wellFounded (hpaths : ∀ path, (l.text? path).isSome = true → path ∈ paths) :
    WellFounded fun after before => l.Step before after := by
  let measure (s : State) : Nat ×ₗ Nat := toLex (unread paths s.visited, s.pending.length)
  apply Subrelation.wf (r := InvImage (· < ·) measure) _ (InvImage.wf measure wellFounded_lt)
  intro after before step
  apply Prod.Lex.toLex_lt_toLex.mpr
  cases step with
  | skip _ => exact Or.inr ⟨rfl, by simp⟩
  | load hfind _ =>
      obtain ⟨htext, hfresh⟩ := fresh_of_find hfind
      exact Or.inl (unread_cons_lt (hpaths _ (by simp [htext])) hfresh)

/-- With room for all the files that can be read, the limit is never met. -/
theorem run_within_limit (hpaths : ∀ path, (l.text? path).isSome = true → path ∈ paths)
    (limit : Nat) (visited : List FilePath) (pending : List PendingModule)
    (hlimit : unread paths visited ≤ limit) (file : FilePath) :
    (l.run limit visited pending).problem ≠ some (.beyondLimit file) := by
  fun_induction run l limit visited pending with
  | case3 limit visited next pending hfind ih => exact ih hlimit
  | case4 visited next pending found hfind =>
      -- there is room for a file that was not read yet
      obtain ⟨htext, hfresh⟩ := fresh_of_find hfind
      have hlt := unread_cons_lt (hpaths _ (by simp [htext])) hfresh
      omega
  | case6 visited next pending found hfind limit items hparse file declared later ih =>
      obtain ⟨htext, hfresh⟩ := fresh_of_find hfind
      have hlt := unread_cons_lt (hpaths _ (by simp [htext])) hfresh
      exact ih (by omega)
  | _ => simp

theorem load_within_limit (hpaths : ∀ path, (l.text? path).isSome = true → path ∈ paths)
    {limit : Nat} (hlimit : paths.length ≤ limit) (root : FilePath) (text : String)
    (file : FilePath) : (l.load limit root text).problem ≠ some (.beyondLimit file) := by
  cases hparse : l.parse text with
  | error failure => simp [load, hparse]
  | ok items =>
      simp only [load, hparse]
      exact run_within_limit hpaths limit [root] _ ((List.length_filter_le _ _).trans hlimit) file

/-- A loading that gets through has gone round until nothing was pending. -/
theorem run_ends (limit : Nat) (visited : List FilePath) (pending : List PendingModule)
    (hthrough : (l.run limit visited pending).problem = none) :
    ∀ placed : List Placed, placed.map (·.file.path) = visited →
      ∃ finish : State, Relation.ReflTransGen l.Step ⟨pending, placed⟩ finish ∧
        finish.pending = [] ∧
        finish.placed.map (·.file) =
          (l.run limit visited pending).loaded.reverse ++ placed.map (·.file) := by
  intro placed hvisited
  fun_induction run l limit visited pending generalizing placed with
  | case1 => exact ⟨⟨[], placed⟩, .refl, rfl, by simp⟩
  | case3 limit visited next pending hfind ih =>
      obtain ⟨finish, hsteps, hend⟩ := ih hthrough placed hvisited
      subst hvisited
      exact ⟨finish, .head (.skip (s := ⟨pending, placed⟩) hfind) hsteps, hend⟩
  | case6 visited next pending found hfind limit items hparse file declared later ih =>
      obtain ⟨finish, hsteps, hpending, hplaced⟩ := ih hthrough
        (⟨file, found.directory⟩ :: placed) (by simp [file, hvisited])
      subst hvisited
      refine ⟨finish, .head (.load (s := ⟨pending, placed⟩) hfind hparse) hsteps, hpending, ?_⟩
      simp [hplaced, later]
  | _ => simp at hthrough

theorem load_ends {limit : Nat} {root : FilePath} {text : String}
    (hthrough : (l.load limit root text).problem = none) :
    ∃ (items : List Item) (finish : State), l.parse text = .ok items ∧
      Relation.ReflTransGen l.Step (start root items) finish ∧ finish.pending = [] ∧
      finish.placed.map (·.file) = (l.load limit root text).loaded.reverse := by
  cases hparse : l.parse text with
  | error failure => simp [load, hparse] at hthrough
  | ok items =>
      simp only [load, hparse] at hthrough ⊢
      obtain ⟨finish, hsteps, hpending, hplaced⟩ := run_ends limit [root] _ hthrough
        (start root items).placed rfl
      refine ⟨items, finish, rfl, ?_, hpending,
        by simpa [start, State.add, Placed.ofRoot] using hplaced⟩
      simpa [start, State.add, Placed.ofRoot] using hsteps

end

/-- What is true between two rounds of the loading of a root file. -/
structure Invariant (l : Loader) (origin : Placed) (s : State) : Prop where
  distinct : s.visited.Nodup
  read : ∀ p ∈ s.placed, ∃ text,
    l.text? p.file.path = some text ∧ l.parse text = .ok p.file.items
  root : origin ∈ s.placed
  unique : ∀ p ∈ s.placed, p.file.isRoot = true → p = origin
  fromRoot : ∀ p ∈ s.placed, p.FromRoot l.text? s.placed
  /-- What is pending is declared by a loaded file. -/
  declared : ∀ next ∈ s.pending, ∃ p ∈ s.placed, p.Declares next
  /-- What a loaded file declares is pending, or its file is loaded if there is any. -/
  settled : ∀ p ∈ s.placed, ∀ next, p.Declares next →
    next ∈ s.pending ∨ ∀ candidate, next.file? l.text? = some candidate → candidate.1 ∈ s.visited

namespace Invariant

variable {l : Loader} {origin : Placed} {s : State} {next : PendingModule}

theorem isSome_text? (inv : l.Invariant origin s) :
    ∀ path ∈ s.visited, (l.text? path).isSome = true := by
  intro path member
  obtain ⟨p, hp, rfl⟩ := List.mem_map.mp member
  obtain ⟨text, htext, -⟩ := inv.read p hp
  simp [htext]

theorem skip (inv : l.Invariant origin ⟨next :: s.pending, s.placed⟩)
    (hfind : l.find s.visited next.candidates = .ok none) : l.Invariant origin s where
  distinct := inv.distinct
  read := inv.read
  root := inv.root
  unique := inv.unique
  fromRoot := inv.fromRoot
  declared later member := inv.declared later (List.mem_cons_of_mem _ member)
  settled p hp later hdeclares := by
    rcases inv.settled p hp later hdeclares with hpending | hvisited
    · rcases List.mem_cons.mp hpending with rfl | hpending
      · exact Or.inr fun _ hfile => visited_of_find inv.isSome_text? hfind hfile
      · exact Or.inl hpending
    · exact Or.inr hvisited

theorem load (inv : l.Invariant origin ⟨next :: s.pending, s.placed⟩) {found : FoundFile}
    (hfind : l.find s.visited next.candidates = .ok (some found)) {items : List Item}
    (hparse : l.parse found.text = .ok items) :
    l.Invariant origin (s.add ⟨⟨found.path, next.module, items, false⟩, found.directory⟩) := by
  obtain ⟨htext, hfresh⟩ := fresh_of_find hfind
  have hfile : next.file? l.text? = some (found.path, found.directory) := find?_of_find hfind
  have hsub : s.placed ⊆
      (s.add ⟨⟨found.path, next.module, items, false⟩, found.directory⟩).placed :=
    List.subset_cons_self _ _
  obtain ⟨q, hq, hdeclares⟩ := inv.declared next (by simp)
  constructor
  case distinct => exact List.nodup_cons.mpr ⟨hfresh, inv.distinct⟩
  case read =>
    intro p hp
    rcases List.mem_cons.mp hp with rfl | hp
    · exact ⟨found.text, htext, hparse⟩
    · exact inv.read p hp
  case root => exact hsub inv.root
  case unique =>
    intro p hp hroot
    rcases List.mem_cons.mp hp with rfl | hp
    · cases hroot
    · exact inv.unique p hp hroot
  case fromRoot =>
    intro p hp
    rcases List.mem_cons.mp hp with rfl | hp
    · exact .declared ((inv.fromRoot q hq).mono hsub) hdeclares hfile rfl rfl (by simp [State.add])
    · exact (inv.fromRoot p hp).mono hsub
  case declared =>
    intro later member
    rcases List.mem_append.mp member with hnew | hold
    · exact ⟨_, by simp [State.add], Placed.mem_declaredModules_iff.mp (List.mem_reverse.mp hnew)⟩
    · obtain ⟨p, hp, hlater⟩ := inv.declared later (List.mem_cons_of_mem _ hold)
      exact ⟨p, hsub hp, hlater⟩
  case settled =>
    intro p hp later hlater
    rcases List.mem_cons.mp hp with rfl | hp
    · exact Or.inl (List.mem_append_left _
        (List.mem_reverse.mpr (Placed.mem_declaredModules_iff.mpr hlater)))
    · rcases inv.settled p hp later hlater with hpending | hvisited
      · rcases List.mem_cons.mp hpending with rfl | hpending
        · refine Or.inr fun candidate hcandidate => ?_
          rw [hfile] at hcandidate
          cases hcandidate
          simp
        · exact Or.inl (List.mem_append_right _ hpending)
      · exact Or.inr fun candidate hcandidate =>
          List.mem_cons_of_mem _ (hvisited candidate hcandidate)

theorem step {before after : State} (inv : l.Invariant origin before) (h : l.Step before after) :
    l.Invariant origin after := by
  cases h with
  | skip hfind => exact inv.skip hfind
  | load hfind hparse => exact inv.load hfind hparse

theorem steps {before after : State} (inv : l.Invariant origin before)
    (h : Relation.ReflTransGen l.Step before after) : l.Invariant origin after := by
  induction h with
  | refl => exact inv
  | tail _ hstep ih => exact ih.step hstep

theorem start {path : FilePath} {text : String} {items : List Item}
    (htext : l.text? path = some text) (hparse : l.parse text = .ok items) :
    l.Invariant (.ofRoot path items) (start path items) := by
  have hplaced : (Loader.start path items).placed = [.ofRoot path items] := rfl
  constructor
  case distinct => simp [State.visited, hplaced]
  case read => simpa [hplaced] using ⟨text, htext, hparse⟩
  case root => simp [hplaced]
  case unique => simp [hplaced]
  case fromRoot =>
    intro p hp
    obtain rfl : p = .ofRoot path items := by simpa [hplaced] using hp
    exact .root hp rfl rfl
  case declared =>
    intro next member
    refine ⟨.ofRoot path items, by simp [hplaced], Placed.mem_declaredModules_iff.mp ?_⟩
    simpa [Loader.start, State.add] using member
  case settled =>
    intro p hp next hdeclares
    obtain rfl : p = .ofRoot path items := by simpa [hplaced] using hp
    refine Or.inl ?_
    simpa [Loader.start, State.add] using Placed.mem_declaredModules_iff.mpr hdeclares

end Invariant

end Loader

/-- Files that are the closure of the module declarations of a root file, for given texts of files
and a given grammar. -/
structure IsModuleClosure (text? : FilePath → Option String)
    (parse : String → Except Grammar.Failure (List Item)) (root : FilePath)
    (placed : List Placed) : Prop where
  distinct : (placed.map (·.file.path)).Nodup
  /-- One file is the root of the crate, in every sense. -/
  root : ∃ p ∈ placed, p.file.isRoot = true ∧ p.file.module = .crateRoot ∧ p.file.path = root ∧
    p.directory = root.directory ∧
    ∀ q ∈ placed, q.file.isRoot = true ∨ q.file.module = .crateRoot → q = p
  read : ∀ p ∈ placed, ∃ text, text? p.file.path = some text ∧ parse text = .ok p.file.items
  /-- Every file is the root or the first present candidate of a declaration in a loaded file. -/
  sound : ∀ p ∈ placed, p.FromRoot text? placed
  /-- For every declaration in a loaded file the first present candidate is loaded. -/
  complete : ∀ p ∈ placed, ∀ next, p.Declares next → ∀ candidate,
    next.file? text? = some candidate → ∃ q ∈ placed, q.file.path = candidate.1

/-- The root of a crate lies where the crate is rooted. -/
theorem IsModuleClosure.of_isRoot {text? : FilePath → Option String}
    {parse : String → Except Grammar.Failure (List Item)} {root : FilePath} {placed : List Placed}
    (closure : IsModuleClosure text? parse root placed) {p : Placed} (hp : p ∈ placed)
    (hroot : p.file.isRoot = true) : p.file.path = root ∧ p.directory = root.directory := by
  obtain ⟨origin, -, -, -, hpath, hdirectory, hunique⟩ := closure.root
  obtain rfl := hunique p hp (Or.inl hroot)
  exact ⟨hpath, hdirectory⟩

/-- With nothing left pending, the loaded files are the closure. -/
theorem Loader.Invariant.isModuleClosure {l : Loader} {path : FilePath} {items : List Item}
    {s : State} (inv : l.Invariant (.ofRoot path items) s) (hpending : s.pending = []) :
    IsModuleClosure l.text? l.parse path s.placed where
  distinct := inv.distinct
  root := by
    refine ⟨_, inv.root, rfl, rfl, rfl, rfl, ?_⟩
    rintro q hq (hroot | hmodule)
    · exact inv.unique q hq hroot
    · exact inv.unique q hq ((inv.fromRoot q hq).isRoot_of_module hmodule)
  read := inv.read
  sound := inv.fromRoot
  complete := by
    intro p hp next hdeclares candidate hcandidate
    rcases inv.settled p hp next hdeclares with hnext | hvisited
    · simp [hpending] at hnext
    · exact List.mem_map.mp (hvisited candidate hcandidate)

namespace SourceTable

/-- The root of a crate among its sources. -/
def rootAmong (sources : List (FilePath × String)) : FilePath :=
  if (⟨"lib.rs"⟩ : FilePath) ∈ sources.map (·.1.normalize) then ⟨"lib.rs"⟩ else ⟨"main.rs"⟩

theorem of_root? {sources : List (FilePath × String)} {path : FilePath} {text : String}
    (h : (ofList sources).root? = some (path, text)) :
    path = rootAmong sources ∧ textOf? sources path = some text := by
  simp only [root?, rootNames, List.findSome?_cons, List.findSome?_nil, lookup_ofList] at h
  have hpresent : (⟨"lib.rs"⟩ : FilePath) ∈ sources.map (·.1.normalize) ↔
      (textOf? sources ⟨"lib.rs"⟩).isSome = true := by
    rw [← mem_paths_ofList, ← isSome_lookup_iff, lookup_ofList]
  cases hlib : textOf? sources ⟨"lib.rs"⟩ with
  | some lib =>
      simp only [hlib, Option.map_some, Option.some.injEq, Prod.mk.injEq] at h
      obtain ⟨rfl, rfl⟩ := h
      exact ⟨by simp [rootAmong, hpresent, hlib], hlib⟩
  | none =>
      cases hmain : textOf? sources ⟨"main.rs"⟩ with
      | none => simp [hlib, hmain] at h
      | some main =>
          simp only [hlib, hmain, Option.map_none, Option.map_some, Option.some.injEq,
            Prod.mk.injEq] at h
          obtain ⟨rfl, rfl⟩ := h
          exact ⟨by simp [rootAmong, hpresent, hlib], hmain⟩

/-- No more files are loaded than there are texts. -/
theorem load?_within_limit {t : SourceTable} {l : Loading} (h : t.load? = some l)
    (file : FilePath) : l.problem ≠ some (.beyondLimit file) := by
  obtain ⟨⟨path, text⟩, -, rfl⟩ := Option.map_eq_some_iff.mp h
  have hpaths : ∀ path, (t.loader.text? path).isSome = true → path ∈ t.paths :=
    fun _ => isSome_lookup_iff.mp
  exact Loader.load_within_limit hpaths (by simp [paths]) path text file

end SourceTable

namespace Loading

/-- The corpus of a loading that got through holds its files in path order. -/
theorem of_corpus {l : Loading} {c : Corpus} (h : l.corpus = .ok c) :
    l.problem = none ∧ c.files = l.loaded.mergeSort fun f g => f.path.le g.path := by
  cases hproblem : l.problem with
  | some problem => simp [corpus, hproblem] at h
  | none =>
      simp only [corpus, hproblem, Except.ok.injEq] at h
      exact ⟨rfl, by rw [← h]⟩

end Loading

/-- In path order the files of a closure are in strict order, since their paths are in normal form
and no two of them agree. -/
theorem IsModuleClosure.pairwise_mergeSort {sources : List (FilePath × String)}
    {parse : String → Except Grammar.Failure (List Item)} {root : FilePath} {placed : List Placed}
    (closure : IsModuleClosure (textOf? sources) parse root placed) {files : List SourceFile}
    (hperm : (placed.map (·.file)).Perm files) :
    (files.mergeSort fun f g => f.path.le g.path).Pairwise fun f g =>
      f.path.compare g.path = .lt := by
  have hsorted : (files.mergeSort fun f g => f.path.le g.path).Pairwise fun f g =>
      f.path.le g.path = true := by
    apply List.pairwise_mergeSort
    · exact fun f g k => FilePath.le_trans f.path g.path k.path
    · exact fun f g => FilePath.le_total f.path g.path
  have hall := hperm.trans (List.mergeSort_perm files fun f g => f.path.le g.path).symm
  have hdistinct : (files.mergeSort fun f g => f.path.le g.path).Pairwise fun f g =>
      f.path ≠ g.path := by
    apply List.pairwise_map.mp
    apply (hall.map SourceFile.path).nodup_iff.mp
    simpa [List.map_map, Function.comp_def] using closure.distinct
  have hcanonical : ∀ f ∈ files.mergeSort fun f g => f.path.le g.path, f.path.IsCanonical := by
    intro f hf
    obtain ⟨p, hp, rfl⟩ := List.mem_map.mp (hall.mem_iff.mpr hf)
    obtain ⟨text, htext, -⟩ := closure.read p hp
    rw [← SourceTable.lookup_ofList] at htext
    have hpath : p.file.path ∈ (SourceTable.ofList sources).paths :=
      SourceTable.isSome_lookup_iff.mp (by simp [htext])
    exact SourceTable.isCanonical_of_mem_paths _ hpath
  refine (hsorted.and hdistinct).imp_of_mem ?_
  rintro f g hf hg ⟨hle, hne⟩
  exact (hcanonical f hf).compare_eq_lt (hcanonical g hg) hle hne

namespace Corpus

/-- The files of a crate are the closure of the module declarations that its sources hold. The loop
ends whatever the sources declare, and counts every file that it loads, out of all paths of the
sources. -/
theorem isModuleClosure_ofSources {sources : List (FilePath × String)} {c : Corpus}
    (h : ofSources sources = .ok c) :
    (WellFounded fun after before => (SourceTable.ofList sources).loader.Step before after) ∧
    (c.files.Pairwise fun f g => f.path.compare g.path = .lt) ∧
    (∃ (items : List Item) (finish : Loader.State),
      Relation.ReflTransGen (SourceTable.ofList sources).loader.Step
        (Loader.start (SourceTable.rootAmong sources) items) finish ∧
      finish.pending = [] ∧
      (finish.placed.map (·.file)).Perm c.files ∧
      IsModuleClosure (textOf? sources) Grammar.parseFile (SourceTable.rootAmong sources)
        finish.placed) ∧
    ∀ s : Session, (s.replay (SourceTable.ofList sources).events).progress =
      ⟨c.files.length, (sources.map (·.1.normalize)).dedup.length⟩ := by
  let t := SourceTable.ofList sources
  have htext : t.loader.text? = textOf? sources := funext (SourceTable.lookup_ofList sources)
  have hpaths : ∀ path, (t.loader.text? path).isSome = true → path ∈ t.paths :=
    fun path => SourceTable.isSome_lookup_iff.mp
  cases hroot : t.root? with
  | none => simp [ofSources, SourceTable.loadTraced, SourceTable.load?, t, hroot] at h
  | some root =>
      obtain ⟨path, text⟩ := root
      obtain ⟨rfl, hrootText⟩ := SourceTable.of_root? hroot
      let loading := t.loader.load t.entries.length (SourceTable.rootAmong sources) text
      have hload : t.load? = some loading := by simp [SourceTable.load?, hroot, loading]
      have hcorpus : loading.corpus = .ok c := by
        simpa [ofSources, SourceTable.loadTraced, t, hload] using h
      obtain ⟨hthrough, hfiles⟩ := Loading.of_corpus hcorpus
      obtain ⟨items, finish, hparse, hsteps, hpending, hplaced⟩ := Loader.load_ends hthrough
      have hclosure : IsModuleClosure (textOf? sources) Grammar.parseFile
          (SourceTable.rootAmong sources) finish.placed := by
        rw [← htext]
        exact ((Loader.Invariant.start (by rw [htext, hrootText]) hparse).steps
          hsteps).isModuleClosure hpending
      have hperm : (finish.placed.map (·.file)).Perm loading.loaded := by
        rw [hplaced]
        exact List.reverse_perm _
      rw [hfiles]
      refine ⟨Loader.step_wellFounded hpaths, hclosure.pairwise_mergeSort hperm,
        ⟨items, finish, hsteps, hpending, hperm.trans (List.mergeSort_perm _ _).symm, hclosure⟩, ?_⟩
      intro s
      rw [(SourceTable.countsTo_events hload).progress_replay, List.length_mergeSort,
        SourceTable.length_ofList]

/-- Two files that declare each other, a declaration without a file and a file without one. -/
def looped : List (FilePath × String) :=
  [(⟨"lib.rs"⟩, "mod m;"), (⟨"m.rs"⟩, "#[path = \"lib.rs\"] mod up; mod lost;"),
    (⟨"./stray.rs"⟩, "mod m;")]

def loopedRoot : SourceFile := ⟨⟨"lib.rs"⟩, .crateRoot, [.submodule "m" [] none], true⟩

def loopedInner : SourceFile :=
  ⟨⟨"m.rs"⟩, ⟨["crate", "m"]⟩,
    [.submodule "up" [⟨false, ⟨false, ["path"], 1⟩, .value (some "lib.rs")⟩] none,
      .submodule "lost" [] none], false⟩

theorem ofSources_looped : ofSources looped = .ok ⟨[loopedRoot, loopedInner]⟩ := by
  let l := (SourceTable.ofList looped).loader
  have hlater : l.run 2 [⟨"m.rs"⟩, ⟨"lib.rs"⟩]
      ((loopedInner.declaredModules ⟨"m"⟩).reverse ++ []) = ⟨[], none⟩ := by
    let up : PendingModule := ⟨⟨["crate", "m", "up"]⟩, [(⟨"lib.rs"⟩, ⟨""⟩)]⟩
    let lost : PendingModule := ⟨⟨["crate", "m", "lost"]⟩,
      [(⟨"m/lost.rs"⟩, ⟨"m/lost"⟩), (⟨"m/lost/mod.rs"⟩, ⟨"m/lost"⟩)]⟩
    have hdeclared : (loopedInner.declaredModules ⟨"m"⟩).reverse = [lost, up] := rfl
    rw [hdeclared, List.append_nil, Loader.run_skip rfl, Loader.run_skip rfl, Loader.run_nil]
  have hrun : l.run 3 [⟨"lib.rs"⟩] (loopedRoot.declaredModules ⟨""⟩).reverse =
      ⟨[loopedInner], none⟩ := by
    let m : PendingModule := ⟨⟨["crate", "m"]⟩, [(⟨"m.rs"⟩, ⟨"m"⟩), (⟨"m/mod.rs"⟩, ⟨"m"⟩)]⟩
    have hdeclared : (loopedRoot.declaredModules ⟨""⟩).reverse = [m] := rfl
    have hfound : l.find [⟨"lib.rs"⟩] m.candidates =
        .ok (some ⟨⟨"m.rs"⟩, ⟨"m"⟩, "#[path = \"lib.rs\"] mod up; mod lost;"⟩) := rfl
    have hparse : l.parse "#[path = \"lib.rs\"] mod up; mod lost;" = .ok loopedInner.items :=
      Item.parse_of_sameAll (by decide +kernel)
    rw [hdeclared]
    exact Loader.run_load hfound hparse rfl hlater
  have hload : l.load 3 ⟨"lib.rs"⟩ "mod m;" = ⟨[loopedRoot, loopedInner], none⟩ := by
    have hparse : l.parse "mod m;" = .ok loopedRoot.items :=
      Item.parse_of_sameAll (by decide +kernel)
    have hdirectory : (FilePath.mk "lib.rs").directory = ⟨""⟩ := rfl
    simp only [Loader.load, hparse, hdirectory]
    exact congrArg (fun later => Loading.mk (loopedRoot :: later.loaded) later.problem) hrun
  have hcorpus : ofSources looped = (l.load 3 ⟨"lib.rs"⟩ "mod m;").corpus := rfl
  rw [hcorpus, hload]
  change Except.ok (Corpus.mk (List.mergeSort _ _)) = _
  rw [List.mergeSort_of_pairwise (by decide +kernel)]

/-- The two files are loaded once each, and the third path is counted but not loaded. -/
theorem isModuleClosure_looped : ofSources looped = .ok ⟨[loopedRoot, loopedInner]⟩ ∧
    ∀ s : Session, (s.replay (SourceTable.ofList looped).events).progress = ⟨2, 3⟩ :=
  ⟨ofSources_looped, fun s => (isModuleClosure_ofSources ofSources_looped).2.2.2 s⟩

end Corpus

end MarkerIndex
