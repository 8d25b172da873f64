import MarkerIndex.Proofs.BelowDirectory
import MarkerIndex.Proofs.KnownItems
/-!
The file of a module, told by the names of the module. The names from the root of a crate down to a
module, each without the mark of raw names, are those of the directory that its own modules lie in,
whether the modules on the way are files or written in place. So where no attribute places a module,
its path says which file it lies in, and no two files are loaded for one module.
-/

namespace MarkerIndex

open FilePath

/-- The file of the module that names lead to is named like it, or else, where the sources have no
such file, lies in the directory of that name. -/
def LiesByName (sources : List (FilePath × String)) (above : List String) (name : String)
    (path : FilePath) : Prop :=
  path = ofNames (above ++ [name ++ ".rs"]) ∨
    path = ofNames (above ++ [name, "mod.rs"]) ∧
      ofNames (above ++ [name ++ ".rs"]) ∉ sources.map (·.1.normalize)

namespace PendingModule

/-- The names from the root of the crate down to a place are those of its directory. Of
`Site.Follows` it differs in that a name may be that of the file in a directory. -/
structure Site.GoesBy (site : Site) (names : List String) : Prop where
  areNames : AreNames names
  module : site.module = ItemPath.crateRoot.extend names
  directory : site.directory = ofNames names

/-- The names from the root of the crate down to a module are those of the files that may hold it.
-/
structure GoesBy (next : PendingModule) (above : List String) (name : String) : Prop where
  areNames : AreNames (above ++ [name])
  module : next.module = ItemPath.crateRoot.extend (above ++ [name])
  candidates : next.candidates = candidatesAt above name

variable {site : Site} {names above : List String} {name : String}

theorem Site.GoesBy.candidatesOf (h : site.GoesBy names) (hname : (Component.normal name).IsName) :
    PendingModule.candidatesOf site name none = candidatesAt names name := by
  rw [BaseDirectory.candidatesOf_below (b := .origin) h.directory h.areNames hname,
    List.append_assoc]
  rfl

/-- The directory of a module that is written in place goes by its name, too. -/
theorem Site.GoesBy.inside (h : site.GoesBy names) {rawName : String} {attributes : List Attribute}
    (hname : (Component.normal (Text.unraw rawName)).IsName)
    (hfound : attributes.findSome? Attribute.pathValue? = none) :
    (site.inside rawName attributes).GoesBy (names ++ [Text.unraw rawName]) where
  areNames := h.areNames.concat hname
  module := by rw [Site.inside, h.module, ItemPath.extend_concat]
  directory := by simp only [Site.inside, hfound, h.directory, Option.getD_none, ofNames_concat]

theorem Declares.goesBy {items : List Item} {next : PendingModule} (h : Declares site items next)
    (hsite : site.GoesBy names) (hitems : Item.FoundByName items) :
    ∃ above name, next.GoesBy above name := by
  induction h generalizing names with
  | here member =>
      obtain ⟨hname, hfound, -⟩ := hitems.of_submodule member
      refine ⟨names, _, hsite.areNames.concat hname, ?_, ?_⟩
      · rw [hsite.module, ItemPath.extend_concat]
      · rw [hfound, hsite.candidatesOf hname]
  | inside member _ ih =>
      obtain ⟨hname, hfound, hnested⟩ := hitems.of_submodule member
      exact ih (hsite.inside hname hfound) (hnested _ rfl)

/-- The file that is found for such a module, with the directory for the modules in it. -/
theorem GoesBy.of_file? {next : PendingModule} (h : next.GoesBy above name)
    {text? : FilePath → Option String} {path directory : FilePath}
    (hfile : next.file? text? = some (path, directory)) :
    directory = ofNames (above ++ [name]) ∧
      (path = ofNames (above ++ [name ++ ".rs"]) ∨
        path = ofNames (above ++ [name, "mod.rs"]) ∧
        text? (ofNames (above ++ [name ++ ".rs"])) = none) := by
  rw [file?, h.candidates, candidatesAt, List.find?_cons] at hfile
  split at hfile
  · obtain ⟨rfl, rfl⟩ := Prod.mk.inj (Option.some.inj hfile)
    exact ⟨rfl, Or.inl rfl⟩
  · next habsent =>
      obtain ⟨hpath, hdirectory⟩ :=
        Prod.mk.inj (List.mem_singleton.mp (List.mem_of_find?_eq_some hfile))
      exact ⟨hdirectory, Or.inr ⟨hpath, by simpa using habsent⟩⟩

end PendingModule

namespace IsModuleClosure

variable {text? : FilePath → Option String} {parse : String → Except Grammar.Failure (List Item)}
  {root : FilePath} {placed : List Placed} {p q : Placed}

/-- Declarations in every file of a crate go by names. The induction is on the way that the
declarations lead from the root to the file. -/
theorem goesBy (closure : IsModuleClosure text? parse root placed) (hroot : root.directory = ⟨""⟩)
    (hitems : ∀ p ∈ placed, Item.FoundByName p.file.items) (hp : p ∈ placed) :
    ∃ names, p.site.GoesBy names := by
  have hfrom := closure.sound p hp
  clear hp
  induction hfrom with
  | @root p member hisRoot hmodule =>
      obtain ⟨-, hdirectory⟩ := closure.of_isRoot member hisRoot
      refine ⟨[], by simp [AreNames], ?_, ?_⟩
      · simpa [Placed.site] using hmodule
      · rw [Placed.site, hdirectory, hroot]
        rfl
  | @declared q p next hfrom hdeclares hfile hmodule _ member ih =>
      obtain ⟨names, hsite⟩ := ih
      obtain ⟨above, name, hnext⟩ := hdeclares.goesBy hsite (hitems q hfrom.mem)
      exact ⟨above ++ [name], hnext.areNames, hmodule.trans hnext.module, (hnext.of_file? hfile).1⟩

/-- The names of a module say where its file is. -/
theorem path_of_module (closure : IsModuleClosure text? parse root placed)
    (hroot : root.directory = ⟨""⟩)
    (hitems : ∀ p ∈ placed, Item.FoundByName p.file.items) (hp : p ∈ placed)
    (hinner : p.file.isRoot = false) :
    ∃ above name, p.file.module = ItemPath.crateRoot.extend (above ++ [name]) ∧
      (p.file.path = ofNames (above ++ [name ++ ".rs"]) ∨
        p.file.path = ofNames (above ++ [name, "mod.rs"]) ∧
          text? (ofNames (above ++ [name ++ ".rs"])) = none) := by
  cases closure.sound p hp with
  | root _ hisRoot _ => simp [hinner] at hisRoot
  | declared hfrom hdeclares hfile hmodule _ _ =>
      obtain ⟨names, hsite⟩ := closure.goesBy hroot hitems hfrom.mem
      obtain ⟨above, name, hnext⟩ :=
        PendingModule.Declares.goesBy hdeclares hsite (hitems _ hfrom.mem)
      exact ⟨above, name, hmodule.trans hnext.module, (hnext.of_file? hfile).2⟩

/-- No two files are loaded for one module. Of the two files that there could be, the one in a
directory is loaded only where there is no other. -/
theorem eq_of_module (closure : IsModuleClosure text? parse root placed)
    (hroot : root.directory = ⟨""⟩)
    (hitems : ∀ p ∈ placed, Item.FoundByName p.file.items) (hp : p ∈ placed) (hq : q ∈ placed)
    (hsame : p.file.module = q.file.module) : p = q := by
  obtain ⟨origin, -, -, horigin, -, -, hunique⟩ := closure.root
  by_cases hmodule : p.file.module = .crateRoot
  · rw [hunique p hp (Or.inr hmodule), hunique q hq (Or.inr (hsame ▸ hmodule))]
  have hinner : ∀ r ∈ placed, r.file.module = p.file.module → r.file.isRoot = false := by
    intro r hr hname
    by_contra hisRoot
    obtain rfl := hunique r hr (Or.inl (by simpa using hisRoot))
    exact hmodule (hname ▸ horigin)
  obtain ⟨above, name, hp', hpath⟩ := closure.path_of_module hroot hitems hp (hinner p hp rfl)
  obtain ⟨above', name', hq', hpath'⟩ :=
    closure.path_of_module hroot hitems hq (hinner q hq hsame.symm)
  have hnames : above ++ [name] = above' ++ [name'] :=
    List.append_cancel_left (congrArg ItemPath.segments (hp'.symm.trans (hsame.trans hq')))
  obtain ⟨rfl, hlast⟩ := List.append_inj' hnames rfl
  obtain rfl := List.singleton_inj.mp hlast
  -- a file that was loaded is there, so that it comes before the one in the directory
  have hpresent : ∀ r ∈ placed, text? r.file.path ≠ none := by
    intro r hr habsent
    obtain ⟨text, htext, -⟩ := closure.read r hr
    simp [habsent] at htext
  refine List.inj_on_of_nodup_map closure.distinct hp hq ?_
  rcases hpath with hfile | ⟨hmod, habsent⟩ <;> rcases hpath' with hfile' | ⟨hmod', habsent'⟩
  · exact hfile.trans hfile'.symm
  · exact absurd (hfile ▸ habsent') (hpresent p hp)
  · exact absurd (hfile' ▸ habsent) (hpresent q hq)
  · exact hmod.trans hmod'.symm

end IsModuleClosure

namespace Corpus

/-- Where no attribute places a module, the names of a module say which file it lies in, at whatever
depth of files and of modules written in place it is declared, and no two files are loaded for one
module. -/
theorem files_go_by_modules {sources : List (FilePath × String)} {c : Corpus}
    (h : ofSources sources = .ok c)
    (hfound : c.FindsModulesByName) :
    (∀ f ∈ c.files, f.isRoot = false → ∃ above name,
      f.module = ItemPath.crateRoot.extend (above ++ [name]) ∧
      LiesByName sources above name f.path) ∧
    (c.files.map (·.module)).Nodup := by
  obtain ⟨placed, hloads, -⟩ := ofSources_eq_ok_iff.mp h
  have hperm := files_perm_of_loads hloads h
  have closure := isModuleClosure_of_loads hloads
  have hroot : (SourceTable.rootAmong sources).directory = ⟨""⟩ := by
    unfold SourceTable.rootAmong
    split <;> rfl
  have hitems : ∀ p ∈ placed, Item.FoundByName p.file.items := by
    intro p hp
    obtain ⟨text, -, hparse⟩ := closure.read p hp
    exact ⟨hfound _ (hperm.mem_iff.mpr (List.mem_map_of_mem hp)),
      Grammar.allSpelled_of_parseFile hparse⟩
  constructor
  · intro f hf hinner
    obtain ⟨p, hp, rfl⟩ := List.mem_map.mp (hperm.mem_iff.mp hf)
    obtain ⟨above, name, hmodule, hpath⟩ := closure.path_of_module hroot hitems hp hinner
    refine ⟨above, name, hmodule, hpath.imp_right (And.imp_right fun habsent => ?_)⟩
    rw [← SourceTable.mem_paths_ofList, ← SourceTable.isSome_lookup_iff,
      SourceTable.lookup_ofList, habsent]
    simp
  · have hdistinct : (placed.map (·.file.module)).Nodup :=
      (closure.distinct.of_map _).map_on fun p hp q hq => closure.eq_of_module hroot hitems hp hq
    rw [(hperm.map SourceFile.module).nodup_iff, List.map_map]
    exact hdistinct

/-- A module whose name is that of the file in a directory, inside of a module that is written in
place. -/
def namedLikeFile : List (FilePath × String) :=
  [(⟨"lib.rs"⟩, "mod p \x7b mod r#mod; \x7d"), (⟨"p/mod.rs"⟩, "")]

theorem files_go_by_modules_namedLikeFile :
    ∃ c, ofSources namedLikeFile = .ok c ∧ c.FindsModulesByName ∧
    c.files.map (fun f => (f.path, f.module)) =
      [(⟨"lib.rs"⟩, ⟨["crate"]⟩), (⟨"p/mod.rs"⟩, ⟨["crate", "p", "mod"]⟩)] ∧
    (∀ f ∈ c.files, f.isRoot = false → ∃ above name,
      f.module = ItemPath.crateRoot.extend (above ++ [name]) ∧
        LiesByName namedLikeFile above name f.path) ∧
    (c.files.map (·.module)).Nodup := by
  let items : List Item := [.submodule "p" [] (some [.submodule "r#mod" [] none])]
  let next : PendingModule := ⟨⟨["crate", "p", "mod"]⟩,
    [(⟨"p/mod.rs"⟩, ⟨"p/mod"⟩), (⟨"p/mod/mod.rs"⟩, ⟨"p/mod"⟩)]⟩
  have hitems : Grammar.parseFile "mod p \x7b mod r#mod; \x7d" = .ok items :=
    Item.parse_of_sameAll (by decide +kernel)
  have hinner : Grammar.parseFile "" = .ok [] := Item.parse_of_sameAll (by decide +kernel)
  have hcorpus : ofSources namedLikeFile =
      .ok ⟨[(Placed.ofRoot ⟨"lib.rs"⟩ items).file, ⟨⟨"p/mod.rs"⟩, next.module, [], false⟩]⟩ :=
    ofSources_pair next ⟨⟨"p/mod.rs"⟩, ⟨"p/mod"⟩, ""⟩ (by decide +kernel)
      (by decide +kernel) hitems hinner
      (by decide +kernel) (by decide +kernel) rfl (by decide +kernel)
  have hfound : FindsModulesByName
      ⟨[(Placed.ofRoot ⟨"lib.rs"⟩ items).file, ⟨⟨"p/mod.rs"⟩, next.module, [], false⟩]⟩ := by
    decide +kernel
  exact ⟨_, hcorpus, hfound, rfl, files_go_by_modules hcorpus hfound⟩

end Corpus

end MarkerIndex
