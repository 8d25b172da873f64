import MarkerIndex.Project.Discovery
import MarkerIndex.Proofs.Loading
import MarkerIndex.Proofs.Table
import Mathlib.Data.List.Induction
/-!
The modules of a crate form a tree. However a crate was loaded, every module of its symbol table is
the root of the crate or a child of another module of the table, as long as no module has a raw
name. A raw name breaks this: the loader drops its mark and the table keeps it, so that the modules
below stand under a path that is no module.
-/

namespace MarkerIndex

mutual

/-- No module that the item is or holds has a raw name. -/
def Item.namesModulesPlainly : Item → Bool
  | .submodule name _ (some nested) => Text.unraw name = name && Item.nameModulesPlainly nested
  | .submodule name _ none => Text.unraw name = name
  | _ => true

def Item.nameModulesPlainly : List Item → Bool
  | [] => true
  | item :: items => item.namesModulesPlainly && Item.nameModulesPlainly items

end

namespace Item

theorem nameModulesPlainly_iff {items : List Item} :
    nameModulesPlainly items = true ↔ ∀ item ∈ items, item.namesModulesPlainly = true := by
  induction items with
  | nil => simp [nameModulesPlainly]
  | cons item items ih => rw [nameModulesPlainly, Bool.and_eq_true, ih, List.forall_mem_cons]

theorem namesModulesPlainly_submodule_iff {name : String} {attributes : List Attribute}
    {content : Option (List Item)} :
    (submodule name attributes content).namesModulesPlainly = true ↔
      Text.unraw name = name ∧ ∀ nested, content = some nested →
      nameModulesPlainly nested = true := by
  cases content <;> simp [namesModulesPlainly]

end Item

namespace Corpus

/-- The crate was loaded, from whatever texts and by whatever grammar. -/
def Loaded (c : Corpus) : Prop :=
  ∃ (l : Loader) (limit : Nat) (root : FilePath) (text : String),
    (l.load limit root text).corpus = .ok c

/-- No module of the crate has a raw name. -/
def NamesModulesPlainly (c : Corpus) : Prop :=
  ∀ f ∈ c.files, Item.nameModulesPlainly f.items = true

instance (c : Corpus) : Decidable c.NamesModulesPlainly :=
  inferInstanceAs (Decidable (∀ f ∈ c.files, Item.nameModulesPlainly f.items = true))

/-- A crate of listed sources is what a loading by the grammar of source files gives. -/
theorem exists_load_of_ofSources {sources : List (FilePath × String)} {c : Corpus}
    (h : ofSources sources = .ok c) : ∃ (l : Loader) (limit : Nat) (root : FilePath)
    (text : String),
      l.parse = Grammar.parseFile ∧ (l.load limit root text).corpus = .ok c := by
  cases hroot : (SourceTable.ofList sources).root? with
  | none => simp [ofSources, SourceTable.loadTraced, SourceTable.load?, hroot] at h
  | some root =>
      obtain ⟨path, text⟩ := root
      simp only [ofSources, SourceTable.loadTraced, SourceTable.load?, hroot, Option.map_some] at h
      exact ⟨_, _, path, text, rfl, h⟩

/-- And so is a crate that is found on a disk. -/
theorem exists_load_of_discover {d : Disk} {project : FilePath} {settings : Settings} {c : Corpus}
    (h : (d.discover project settings).result = .ok c) :
    ∃ (l : Loader) (limit : Nat) (root : FilePath) (text : String),
      l.parse = Grammar.parseFile ∧ (l.load limit root text).corpus = .ok c := by
  cases hsources : d.sourceSet project settings with
  | error error => simp [Disk.discover, hsources] at h
  | ok sources =>
      simp only [Disk.discover, hsources] at h
      cases htext : d.read sources.root with
      | error error => simp [Disk.load, htext, Loading.corpus] at h
      | ok text =>
          simp only [Disk.load, htext] at h
          exact ⟨_, _, sources.root, text, rfl, h⟩

theorem loaded_of_ofSources {sources : List (FilePath × String)} {c : Corpus}
    (h : ofSources sources = .ok c) : c.Loaded := by
  obtain ⟨l, limit, root, text, -, hload⟩ := exists_load_of_ofSources h
  exact ⟨l, limit, root, text, hload⟩

theorem loaded_of_discover {d : Disk} {project : FilePath} {settings : Settings} {c : Corpus}
    (h : (d.discover project settings).result = .ok c) : c.Loaded := by
  obtain ⟨l, limit, root, text, -, hload⟩ := exists_load_of_discover h
  exact ⟨l, limit, root, text, hload⟩

end Corpus

namespace Loading

theorem mem_files_of_corpus {l : Loading} {c : Corpus} (h : l.corpus = .ok c) {f : SourceFile} :
    f ∈ c.files ↔ f ∈ l.loaded := by
  cases hproblem : l.problem with
  | some problem => simp [corpus, hproblem] at h
  | none =>
      simp only [corpus, hproblem, Except.ok.injEq] at h
      simp [← h]

end Loading

/-- A path one name below a path that satisfies `P`. -/
def ItemPath.IsChild (P : ItemPath → Prop) (p : ItemPath) : Prop :=
  ∃ q name, p = q.join name ∧ P q

section

variable {P : ItemPath → Prop}

namespace Fact

/-- The walk goes through the items of a module that is in `P`, together with every module that is
written in place there. The facts that it finds are of these modules alone, or of children of them.
-/
theorem Stated.place {m : ItemPath} {items : List Item} {fact : ItemPath × Fact}
    (h : Stated m items fact)
    (hm : P m) (hin : ∀ fact, Stated m items fact → P fact.1) : fact.1 = m ∨ fact.1.IsChild P := by
  induction h with
  | own => exact Or.inl rfl
  | opened => exact Or.inr ⟨_, _, rfl, hm⟩
  | inside hi _ ih =>
      rcases ih (hin _ (.opened hi)) (fun fact h => hin fact (.inside hi h)) with hsame | hbelow
      · exact Or.inr ⟨_, _, hsame, hm⟩
      · exact Or.inr hbelow

end Fact

theorem PendingModule.Declares.isChild {site : Site} {items : List Item} {next : PendingModule}
    (h : Declares site items next) (hm : P site.module)
    (hplain : Item.nameModulesPlainly items = true)
    (hin : ∀ fact, Fact.Stated site.module items fact → P fact.1) : next.module.IsChild P := by
  induction h with
  | here => exact ⟨_, _, rfl, hm⟩
  | inside member _ ih =>
      obtain ⟨hname, hnested⟩ :=
        Item.namesModulesPlainly_submodule_iff.mp (Item.nameModulesPlainly_iff.mp hplain _ member)
      simp only [Site.inside, hname] at ih
      exact ih (hin _ (.opened member)) (hnested _ rfl) fun fact h => hin fact (.inside member h)

/-- If what is pending, and what the loaded files declare, are children of places in `P`, then so
are the modules of the files that get loaded. -/
theorem Loader.run_isChild (l : Loader) (limit : Nat) (visited : List FilePath)
    (pending : List PendingModule) (hpending : ∀ next ∈ pending, next.module.IsChild P)
    (hfiles : ∀ f ∈ (l.run limit visited pending).loaded, ∀ directory,
      ∀ next ∈ f.declaredModules directory, next.module.IsChild P) :
    ∀ f ∈ (l.run limit visited pending).loaded, f.module.IsChild P := by
  fun_induction run l limit visited pending with
  | case3 limit visited next pending found ih =>
      exact ih (fun later member => hpending later (by simp [member])) hfiles
  | case6 visited next pending found hfound limit items hparse file declared later ih =>
      have hlater : ∀ f ∈ later.loaded, f.module.IsChild P := by
        apply ih
        · intro next member
          rcases List.mem_append.mp member with hnew | hold
          · exact hfiles file (by simp) found.directory next (List.mem_reverse.mp hnew)
          · exact hpending next (by simp [hold])
        · intro f member
          exact hfiles f (by simp [later, member])
      intro f member
      rcases List.mem_cons.mp member with rfl | member
      · exact hpending next (by simp)
      · exact hlater f member
  | _ => simp

end

namespace SymbolTable

/-- The modules of the table are the root of the crate and children of modules of the table. -/
structure IsTree (t : SymbolTable) : Prop where
  root : t.isModule .crateRoot = true
  parent : ∀ m, t.isModule m = true → m = .crateRoot ∨ m.IsChild fun q => t.isModule q = true

/-- A module that is reached from the root of the crate through modules of the table. -/
inductive Rooted (t : SymbolTable) : ItemPath → Prop
  | root : t.isModule .crateRoot = true → Rooted t .crateRoot
  | child {m : ItemPath} {name : String} :
      Rooted t m → t.isModule (m.join name) = true → Rooted t (m.join name)

variable {t : SymbolTable}

theorem isModule_ofCorpus_iff {c : Corpus} {m : ItemPath} :
    (ofCorpus c).isModule m = true ↔ ∃ f ∈ c.files, ∃ fact ∈ Fact.ofFile f, fact.1 = m := by
  rw [isModule_iff]
  constructor
  · rintro ⟨fact, member⟩
    obtain ⟨f, hf, hfact⟩ := List.mem_flatMap.mp member
    exact ⟨f, hf, _, hfact, rfl⟩
  · rintro ⟨f, hf, ⟨_, fact⟩, hfact, rfl⟩
    exact ⟨fact, List.mem_flatMap.mpr ⟨f, hf, hfact⟩⟩

section

variable {c : Corpus} {f : SourceFile}

theorem isModule_of_file (hf : f ∈ c.files) : (ofCorpus c).isModule f.module = true :=
  isModule_ofCorpus_iff.mpr ⟨f, hf, (f.module, .module), by simp [Fact.ofFile], rfl⟩

theorem isModule_of_stated (hf : f ∈ c.files) (fact : ItemPath × Fact)
    (h : Fact.Stated f.module f.items fact) :
    (ofCorpus c).isModule fact.1 = true :=
  isModule_ofCorpus_iff.mpr ⟨f, hf, fact, List.mem_cons_of_mem _ (Fact.mem_ofItems_iff.mpr h), rfl⟩

/-- What a file of the crate declares lies below modules of the table. -/
theorem declaredModules_isChild (hf : f ∈ c.files)
    (plain : Item.nameModulesPlainly f.items = true) (directory : FilePath) :
    ∀ next ∈ f.declaredModules directory,
      next.module.IsChild fun q => (ofCorpus c).isModule q = true := by
  intro next member
  have hdeclares := PendingModule.mem_declaredAll_iff.mp member
  exact hdeclares.isChild (isModule_of_file hf) plain (isModule_of_stated hf)

/-- The modules written in place inside of files only ever add children, so that the table of a
crate is a tree if its files are one. -/
theorem isTree_ofCorpus (hroot : ∃ f ∈ c.files, f.module = .crateRoot)
    (hfiles : ∀ f ∈ c.files, f.module = .crateRoot ∨
      f.module.IsChild fun q => (ofCorpus c).isModule q = true) : (ofCorpus c).IsTree where
  root := by
    obtain ⟨f, hf, hmodule⟩ := hroot
    rw [← hmodule]
    exact isModule_of_file hf
  parent := by
    intro m hm
    obtain ⟨f, hf, fact, hfact, rfl⟩ := isModule_ofCorpus_iff.mp hm
    rcases List.mem_cons.mp hfact with rfl | hfact
    · exact hfiles f hf
    · have hstated := Fact.mem_ofItems_iff.mp hfact
      rcases hstated.place (P := fun q => (ofCorpus c).isModule q = true) (isModule_of_file hf)
          (isModule_of_stated hf) with hsame | hchild
      · rw [hsame]
        exact hfiles f hf
      · exact Or.inr hchild

end

/-- Going up from a module of the table never leaves the table. -/
theorem IsTree.isModule_of_extend (tree : t.IsTree) {m : ItemPath} (hm : m.segments ≠ [])
    (names : List String) (h : t.isModule (m.extend names) = true) : t.isModule m = true := by
  induction names using List.reverseRecOn with
  | nil => simpa using h
  | append_singleton names name ih =>
      rw [ItemPath.extend_concat] at h
      rcases tree.parent _ h with hroot | ⟨q, _, hjoin, hq⟩
      · exact absurd (ItemPath.segments_eq_nil_of_join_eq_crateRoot hroot)
          (ItemPath.segments_extend_ne_nil hm names)
      · rw [(ItemPath.join_inj hjoin).1] at ih
        exact ih hq

/-- Every module of the table is rooted. -/
theorem IsTree.rooted (tree : t.IsTree) {m : ItemPath} (h : t.isModule m = true) :
    t.Rooted m := by
  obtain ⟨segments⟩ := m
  induction segments using List.reverseRecOn with
  | nil =>
      rcases tree.parent _ h with hroot | ⟨q, name, hjoin, _⟩
      · simp [ItemPath.crateRoot] at hroot
      · simp [ItemPath.join] at hjoin
  | append_singleton segments last ih =>
      rcases tree.parent _ h with hroot | ⟨q, name, hjoin, hq⟩
      · rw [hroot]
        exact .root tree.root
      · have hsplit : (⟨segments⟩ : ItemPath) = q ∧ last = name :=
          ItemPath.join_inj (p := ⟨segments⟩) hjoin
        rw [hjoin]
        exact .child (hsplit.1 ▸ ih (hsplit.1 ▸ hq)) (hjoin ▸ h)

theorem Rooted.segments_ne_nil {m : ItemPath} (rooted : t.Rooted m) : m.segments ≠ [] := by
  cases rooted with
  | root _ => simp [ItemPath.crateRoot]
  | child _ _ => simp

theorem Rooted.isModule {m : ItemPath} (rooted : t.Rooted m) : t.isModule m = true := by
  cases rooted with
  | root hroot => exact hroot
  | child _ hchild => exact hchild

/-- Where a path below a module is contained, the first step of it is declared. -/
theorem IsTree.declares_of_contains (tree : t.IsTree) {m : ItemPath} (hm : m.segments ≠ [])
    {name : String} {rest : List String} (h : t.contains (m.extend (name :: rest)) = true) :
    t.declares m name = true := by
  rw [ItemPath.extend_cons] at h
  rcases List.eq_nil_or_concat rest with rfl | ⟨before, last, rfl⟩
  · rwa [ItemPath.extend_nil, contains_join hm] at h
  · have hbelow := ItemPath.segments_extend_ne_nil (ItemPath.segments_join_ne_nil m name) before
    rw [List.concat_eq_append, ItemPath.extend_concat, contains_join hbelow, declares_iff] at h
    apply declares_iff.mpr ∘ Or.inr
    rcases h with hitem | hchild
    · exact tree.isModule_of_extend (by simp) before (isModule_of_hasItem hitem)
    · rw [← ItemPath.extend_concat] at hchild
      exact tree.isModule_of_extend (by simp) _ hchild

/-- What declares a name is a module. -/
theorem IsTree.isModule_of_declares (tree : t.IsTree) {m : ItemPath} (hm : m.segments ≠ [])
    {name : String} (h : t.declares m name = true) : t.isModule m = true := by
  rcases declares_iff.mp h with hitem | hchild
  · exact isModule_of_hasItem hitem
  · exact tree.isModule_of_extend hm [name] (by simpa using hchild)

/-- Items of other crates are no part of the tree. -/
theorem IsTree.withExternal (tree : t.IsTree) (items : List ItemPath) :
    (t.withExternal items).IsTree :=
  ⟨tree.root, tree.parent⟩

end SymbolTable

namespace Corpus

/-- Where no module has a raw name, the table of a loaded crate is a tree of modules. -/
theorem isTree_of_loaded {c : Corpus} (loaded : c.Loaded) (plain : c.NamesModulesPlainly) :
    (SymbolTable.ofCorpus c).IsTree := by
  obtain ⟨l, limit, root, text, h⟩ := loaded
  have hfiles := fun f => Loading.mem_files_of_corpus h (f := f)
  cases hparse : l.parse text with
  | error failure => simp [Loader.load, hparse, Loading.corpus] at h
  | ok items =>
      simp only [Loader.load, hparse] at hfiles
      have hroot := (hfiles ⟨root, .crateRoot, items, true⟩).mpr (by simp)
      apply SymbolTable.isTree_ofCorpus ⟨_, hroot, rfl⟩
      intro f hf
      rcases List.mem_cons.mp ((hfiles f).mp hf) with rfl | hlater
      · exact Or.inl rfl
      · refine Or.inr (l.run_isChild limit [root] _ ?_ ?_ f hlater)
        · intro next hnext
          exact SymbolTable.declaredModules_isChild hroot (plain _ hroot) root.directory next
            (List.mem_reverse.mp hnext)
        · intro g hg directory
          have hmember : g ∈ c.files := (hfiles g).mpr (by simp [hg])
          exact SymbolTable.declaredModules_isChild hmember (plain g hmember) directory

theorem isTree_table {c : Corpus} (loaded : c.Loaded) (plain : c.NamesModulesPlainly)
    (external : List ItemPath) : (c.table external).IsTree :=
  (isTree_of_loaded loaded plain).withExternal external

/-- A crate of one file. -/
def ofItems (items : List Item) : Corpus :=
  ⟨[⟨⟨"lib.rs"⟩, .crateRoot, items, true⟩]⟩

/-- One file is a whole crate where it declares no module that lies in another one. -/
theorem loaded_ofItems (items : List Item)
    (h : PendingModule.declaredAll ⟨.crateRoot, (FilePath.mk "lib.rs").directory,
      (FilePath.mk "lib.rs").directory, false⟩ items = []) : (ofItems items).Loaded := by
  refine ⟨⟨fun _ => .ok none, fun _ => .ok items⟩, 0, ⟨"lib.rs"⟩, "", ?_⟩
  simp [Loader.load, SourceFile.declaredModules, h, Loader.run, Loading.corpus, ofItems]

end Corpus

end MarkerIndex
