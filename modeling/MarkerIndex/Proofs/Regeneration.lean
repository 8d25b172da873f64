import MarkerIndex.Pass
import MarkerIndex.Proofs.AddedFile
import MarkerIndex.Proofs.AddedScope
import MarkerIndex.Proofs.GeneratedSource
import MarkerIndex.Proofs.Layout
import MarkerIndex.Proofs.Scan
import MarkerIndex.Proofs.Spelling
/-!
A generated text put where the crate declares a module for it. The crate then has one file more,
with two modules that were not there: the declared one and the generated one inside it. Neither
holds imports or marked functions, so the next pass over the crate gives the same text again.
-/

namespace MarkerIndex

namespace Emission

/-- The items that a generated text spells. -/
def items (s : Emission) (attributes : List Attribute) (owner : String) : List Item :=
  [.submodule s.module attributes (some [.declaration s.container, .implementation owner []])]

/-- The two modules of a file with generated items. -/
def Holds (s : Emission) (m q : ItemPath) : Prop :=
  q = m ∨ q = m.join s.module

end Emission

/-- A path for the file of a module that is declared, but has none of its candidates. -/
structure Vacancy (sources : List (FilePath × String)) (placed : List Placed) (next : PendingModule)
    (path : FilePath) : Prop where
  normal : path.normalize = path
  notRoot : path ≠ ⟨"lib.rs"⟩
  declared : ∃ p ∈ placed, p.Declares next
  candidate : path ∈ next.candidates.map (·.1)
  /-- No other declaration may mean the file. -/
  only : ∀ p ∈ placed, ∀ other, p.Declares other → path ∈ other.candidates.map (·.1) → other = next
  absent : next.file? (textOf? sources) = none

namespace SourceTable

variable {sources : List (FilePath × String)} {path : FilePath} {text : String}

theorem rootAmong_concat (hnormal : path.normalize = path) (hroot : path ≠ ⟨"lib.rs"⟩) :
    rootAmong (sources ++ [(path, text)]) = rootAmong sources := by
  simp only [rootAmong, List.map_append, List.map_cons, List.map_nil, hnormal, List.mem_append,
    List.mem_singleton, Ne.symm hroot, or_false]

end SourceTable

section

open SourceTable

variable {sources : List (FilePath × String)} {placed : List Placed} {c : Corpus}
  {next : PendingModule} {path : FilePath} {text : String} {s : Emission}
  {attributes : List Attribute} {owner : String}

theorem Vacancy.textOf?_eq_none (vacancy : Vacancy sources placed next path) :
    ∀ candidate ∈ next.candidates, textOf? sources candidate.1 = none := by
  intro candidate member
  simpa using List.find?_eq_none.mp vacancy.absent candidate member

/-- The generated text is one file more for the loader. -/
theorem Vacancy.addition (vacancy : Vacancy sources placed next path)
    (hparse : Grammar.parseFile text = .ok (s.items attributes owner)) :
    ∃ directory, Loader.Addition (ofList sources).loader (ofList (sources ++ [(path, text)])).loader
      next ⟨⟨path, next.module, s.items attributes owner, false⟩, directory⟩ := by
  obtain ⟨candidate, hmember, hpath⟩ := List.mem_map.mp vacancy.candidate
  obtain ⟨first, hfirst⟩ : ∃ first, next.candidates.find? (fun c => c.1 = path) = some first := by
    apply Option.isSome_iff_exists.mp
    rw [List.find?_isSome]
    exact ⟨candidate, hmember, by simpa using hpath⟩
  have hfirstPath : first.1 = path := by simpa using List.find?_some hfirst
  refine ⟨first.2, ?_⟩
  constructor
  case parse => rfl
  case absent =>
    intro other hother
    simp [loader, lookup_ofList, vacancy.textOf?_eq_none other hother]
  case others =>
    intro other hother
    simp [loader, lookup_ofList, textOf?_concat vacancy.normal, hother]
  case present =>
    refine ⟨text, ?_, hparse⟩
    simp [loader, lookup_ofList, textOf?_concat vacancy.normal]
  case candidate =>
    rw [hfirst, ← hfirstPath]
  case file => rfl
  case declares => rfl

/-- With the text in the vacant place the crate has one file more, among the others by its path. -/
theorem Vacancy.ofSources (vacancy : Vacancy sources placed next path)
    (hloads : Loads sources placed) (hcorpus : Corpus.ofSources sources = .ok c)
    (hparse : Grammar.parseFile text = .ok (s.items attributes owner)) :
    ∃ before after, c.files = before ++ after ∧
      Corpus.ofSources (sources ++ [(path, text)]) = .ok
        ⟨before ++ ⟨path, next.module, s.items attributes owner, false⟩ :: after⟩ := by
  obtain ⟨directory, addition⟩ := vacancy.addition hparse
  let file : SourceFile := ⟨path, next.module, s.items attributes owner, false⟩
  have hclosure := Corpus.isModuleClosure_of_loads hloads
  have hpath : path ≠ rootAmong sources := by
    obtain ⟨candidate, hmember, rfl⟩ := List.mem_map.mp vacancy.candidate
    obtain ⟨p, hp, -, -, hroot, -⟩ := hclosure.root
    obtain ⟨text, htext, -⟩ := hclosure.read p hp
    intro hsame
    rw [hroot, ← hsame, vacancy.textOf?_eq_none candidate hmember] at htext
    cases htext
  obtain ⟨newer, older, hplaced, hloads'⟩ :=
    hloads.added addition hpath vacancy.declared vacancy.only
  have hgrown : Loads (sources ++ [(path, text)]) (newer ++ ⟨file, directory⟩ :: older) := by
    rw [Loads, rootAmong_concat vacancy.normal vacancy.notRoot]
    exact hloads'
  let files := ((newer ++ ⟨file, directory⟩ :: older).map (·.file)).reverse.mergeSort
    fun f g => f.path.le g.path
  have hcorpus' : Corpus.ofSources (sources ++ [(path, text)]) = .ok ⟨files⟩ :=
    Corpus.ofSources_eq_ok_iff.mpr ⟨_, hgrown, rfl⟩
  have hperm : files.Perm (file :: c.files) := by
    apply (Corpus.files_perm_of_loads hgrown hcorpus').trans
    apply List.Perm.trans _ ((Corpus.files_perm_of_loads hloads hcorpus).symm.cons file)
    rw [hplaced, List.map_append, List.map_append, List.map_cons]
    exact List.perm_middle
  obtain ⟨before, after, hsplit, hsplit'⟩ :=
    exists_split_of_pairwise (fun _ _ => FilePath.not_compare_eq_lt)
      (Corpus.pairwise_ofSources hcorpus) (Corpus.pairwise_ofSources hcorpus') hperm
  refine ⟨before, after, hsplit, ?_⟩
  rw [hcorpus']
  exact congrArg (fun files => Except.ok (Corpus.mk files)) hsplit'

end

section

variable {before after : List SourceFile} {path : FilePath} {m : ItemPath} {s : Emission}
  {attributes : List Attribute} {owner : String} {external : List ItemPath}

/-- A generated file says of its modules that they are there and that they hold some items. -/
theorem Emission.ofFile_items :
    Fact.ofFile ⟨path, m, s.items attributes owner, false⟩ =
      (m, .module) :: (m, .item s.module) :: (m.join s.module, .module) ::
        (Fact.ofName s.container).map fun fact => (m.join s.module, fact) := by
  simp [Fact.ofFile, Emission.items, Fact.ofItems, Fact.ofItem]

theorem Emission.holds_of_mem_ofFile {fact : ItemPath × Fact}
    (h : fact ∈ Fact.ofFile ⟨path, m, s.items attributes owner, false⟩) :
    s.Holds m fact.1 ∧ (fact.2 = .module ∨ ∃ name, fact.2 = .item name) := by
  rw [ofFile_items] at h
  simp only [List.mem_cons, List.mem_map] at h
  rcases h with rfl | rfl | rfl | ⟨fact, hfact, rfl⟩
  · exact ⟨Or.inl rfl, Or.inl rfl⟩
  · exact ⟨Or.inl rfl, Or.inr ⟨_, rfl⟩⟩
  · exact ⟨Or.inr rfl, Or.inl rfl⟩
  · refine ⟨Or.inr rfl, Or.inr ⟨s.container, ?_⟩⟩
    unfold Fact.ofName at hfact
    split at hfact
    · simp at hfact
    · exact List.mem_singleton.mp hfact

namespace SymbolTable

section

variable {file : SourceFile} {q : ItemPath}

theorem mem_facts_inserted {fact : ItemPath × Fact} :
    fact ∈ ((Corpus.mk (before ++ file :: after)).table external).facts ↔
      fact ∈ Fact.ofFile file ∨ fact ∈ ((Corpus.mk (before ++ after)).table external).facts := by
  change fact ∈ (before ++ file :: after).flatMap Fact.ofFile ↔
    _ ∨ fact ∈ (before ++ after).flatMap Fact.ofFile
  rw [List.flatMap_append, List.flatMap_cons, List.flatMap_append]
  simp only [List.mem_append]
  tauto

theorem contains_inserted {p : ItemPath}
    (h : ((Corpus.mk (before ++ after)).table external).contains p = true) :
    ((Corpus.mk (before ++ file :: after)).table external).contains p = true :=
  contains_mono (fun _ member => mem_facts_inserted.mpr (Or.inr member)) h

/-- A file more says nothing of the modules that it does not speak of. -/
theorem factsOf_inserted (h : ∀ fact ∈ Fact.ofFile file, fact.1 ≠ q) :
    ((Corpus.mk (before ++ file :: after)).table external).factsOf q =
      ((Corpus.mk (before ++ after)).table external).factsOf q := by
  have hnone : (Fact.ofFile file).filter (·.1 = q) = [] := by
    apply List.filter_eq_nil_iff.mpr
    intro fact member
    simpa using h fact member
  change (((before ++ file :: after).flatMap Fact.ofFile).filter (·.1 = q)).map (·.2) =
    (((before ++ after).flatMap Fact.ofFile).filter (·.1 = q)).map (·.2)
  rw [List.flatMap_append, List.flatMap_cons, List.flatMap_append, List.filter_append,
    List.filter_append, List.filter_append, hnone, List.nil_append]

end

/-- A generated file says nothing of other modules than its own. -/
theorem factsOf_of_not_holds {q : ItemPath} (hq : ¬ s.Holds m q) :
    ((Corpus.mk (before ++ ⟨path, m, s.items attributes owner, false⟩ :: after)).table
      external).factsOf q =
      ((Corpus.mk (before ++ after)).table external).factsOf q :=
  factsOf_inserted fun _ member hfact => hq (hfact ▸ (Emission.holds_of_mem_ofFile member).1)

section

variable (hfree : ∀ names,
  ((Corpus.mk (before ++ after)).table external).isModule (m.extend names) = false)

include hfree

/-- The two modules of a generated file were not there before. -/
theorem isModule_of_holds {q : ItemPath} (hq : s.Holds m q) :
    ((Corpus.mk (before ++ after)).table external).isModule q = false := by
  rcases hq with rfl | rfl
  · simpa using hfree []
  · simpa using hfree [s.module]

/-- All that is said of the two modules is that they are there and that they hold some items. -/
theorem plain_of_holds {q : ItemPath} (hq : s.Holds m q) : ((Corpus.mk
    (before ++ ⟨path, m, s.items attributes owner, false⟩ :: after)).table external).Plain q := by
  intro fact member
  rcases mem_facts_inserted.mp member with member | member
  · exact (Emission.holds_of_mem_ofFile member).2
  · have hmodule := isModule_of_mem member
    rw [isModule_of_holds hfree hq] at hmodule
    cases hmodule

/-- No other module lies in the two modules. -/
theorem holds_or_isModule_of_holds {q : ItemPath} (hq : s.Holds m q) (name : String) :
    s.Holds m (q.join name) ∨ ((Corpus.mk (before ++ ⟨path, m, s.items attributes owner, false⟩ ::
      after)).table external).isModule (q.join name) = false := by
  by_cases hholds : s.Holds m (q.join name)
  · exact Or.inl hholds
  · refine Or.inr ?_
    rw [isModule_congr (factsOf_of_not_holds hholds)]
    rcases hq with rfl | rfl
    · simpa using hfree [name]
    · simpa using hfree [s.module, name]

/-- The one module that declares a new module is the one that declared it before. -/
theorem declares_of_not_holds
    (hknown : ((Corpus.mk (before ++ after)).table external).contains m = true) {q : ItemPath}
    (hq : ¬ s.Holds m q) (name : String) :
    ((Corpus.mk (before ++ ⟨path, m, s.items attributes owner, false⟩ :: after)).table
      external).declares
      q name = ((Corpus.mk (before ++ after)).table external).declares q name := by
  rw [declares, declares, hasItem_congr (factsOf_of_not_holds hq)]
  by_cases hholds : s.Holds m (q.join name)
  · have hjoin : q.join name = m :=
      hholds.resolve_right fun h => hq (Or.inl (ItemPath.join_inj h).1)
    have hdeclared : ((Corpus.mk (before ++ after)).table external).hasItem q name = true :=
      hasItem_of_contains (hjoin ▸ hknown) (isModule_of_holds hfree hholds)
    rw [hdeclared, Bool.true_or, Bool.true_or]
  · rw [isModule_congr (factsOf_of_not_holds hholds)]

/-- A crate with a generated file more has the two modules of the file more. -/
theorem grows_generated
    (hknown : ((Corpus.mk (before ++ after)).table external).contains m = true) :
    Grows (s.Holds m) ((Corpus.mk (before ++ after)).table external)
      ((Corpus.mk (before ++ ⟨path, m, s.items attributes owner, false⟩ :: after)).table
        external) where
  external := rfl
  facts _ hq := factsOf_of_not_holds hq
  declares _ name hq := declares_of_not_holds hfree hknown hq name
  free _ hq := isModule_of_holds hfree hq
  walk _ hq := walk_of_plain (fun _ => plain_of_holds hfree)
    (fun _ name hq => holds_or_isModule_of_holds hfree hq name) hq

end

end SymbolTable

/-- No functions stand in a generated file. -/
theorem Declaration.ofCorpus_generated (t : SymbolTable) (registration : ItemPath) :
    ofCorpus t registration ⟨before ++ ⟨path, m, s.items attributes owner, false⟩ :: after⟩ =
      ofCorpus t registration ⟨before ++ after⟩ := by
  have hnone : ∀ place, ofItems t registration place (s.items attributes owner) = [] := by
    intro place
    simp [Emission.items, ofItems, ofItem]
  simp only [ofCorpus, List.flatMap_append, List.flatMap_cons, hnone, List.nil_append]

end

namespace Pass

section

variable {before after : List SourceFile} {path : FilePath} {m : ItemPath} {settings : Settings}
  {attributes : List Attribute} {owner : String}

/-- Where a generated file stands in a vacant place that no glob import reads from, a pass gives
what it gave without the file. -/
theorem generate_beside {a : Artifact}
    (hknown : (SymbolTable.ofCorpus ⟨before ++ after⟩).contains m = true)
    (hfree : ∀ names, (SymbolTable.ofCorpus ⟨before ++ after⟩).isModule (m.extend names) = false)
    (hglobs : (SymbolTable.ofCorpus ⟨before ++ after⟩).Unglobbed
      (Emission.Holds ⟨settings.module, settings.container⟩ m))
    (h : generate ⟨before ++ after⟩ settings = .ok (some a)) :
    generate ⟨before ++ ⟨path, m, Emission.items ⟨settings.module, settings.container⟩ attributes
      owner, false⟩ :: after⟩ settings = .ok (some a) := by
  let s : Emission := ⟨settings.module, settings.container⟩
  let file : SourceFile := ⟨path, m, s.items attributes owner, false⟩
  let c : Corpus := ⟨before ++ after⟩
  let c' : Corpus := ⟨before ++ file :: after⟩
  change generate c settings = .ok (some a) at h
  change generate c' settings = .ok (some a)
  have hgrows : ∀ external, SymbolTable.Grows (s.Holds m) (c.table external) (c'.table external) :=
    fun external => SymbolTable.grows_generated hfree hknown
  have hresolve : ∀ external q, (c.table external).isModule q = true → ∀ p,
      (c'.table external).resolvePath q p = (c.table external).resolvePath q p := by
    intro external q hq p
    apply (hgrows external).resolve (hglobs.withExternal external)
    intro hholds
    rw [(hgrows external).free q hholds] at hq
    cases hq
  have hroot : c'.root? = c.root? := by
    simp [Corpus.root?, c, c', file, List.find?_append]
  have hdeclarations : ∀ external,
      Declaration.ofCorpus (c'.table external) settings.registration c' =
        Declaration.ofCorpus (c.table external) settings.registration c := by
    intro external
    refine (Declaration.ofCorpus_generated _ _).trans (Declaration.ofCorpus_congr ?_)
    intro stands member a _
    exact hresolve external _ ((Declaration.mem_standingIn.mp member).isModule external) a.path
  have hmarkers : ∀ found, Directive.markers c (firstTable c settings) settings = .ok found →
      Directive.markers c' (firstTable c' settings) settings = .ok found := by
    intro found hfound
    refine Directive.markers_congr hroot ?_ (fun _ => SymbolTable.contains_inserted) hfound
    intro root hfind
    have hmember : root ∈ c.files := List.mem_of_find?_eq_some hfind
    exact hresolve _ _ (SymbolTable.isModule_of_file hmember)
  obtain ⟨found, hfound⟩ := exists_markers_of_generate h
  have hscan : scanned c' settings found = scanned c settings found := by
    have hsame := hdeclarations ([settings.registration, settings.directive] ++ found)
    rwa [← Corpus.withExternal_table, ← Corpus.withExternal_table] at hsame
  rw [scanned, scanned] at hscan
  rw [generate_eq_of_markers (hmarkers found hfound), reportOf, hscan, ← reportOf,
    ← generate_eq_of_markers hfound, h]

end

/-- A generated text that is put into a vacant place of its crate is generated again. The crate
loads that one file more. The table has to know the declared module by the path that the loader
gives it, and no other block or file may stand for that path. -/
theorem generate_again {sources : List (FilePath × String)} {placed : List Placed} {c : Corpus}
    {settings : Settings} {a : Artifact} {next : PendingModule} {path : FilePath}
    {attributes : List Attribute} {owner : String}
    (hloads : SourceTable.Loads sources placed) (hcorpus : Corpus.ofSources sources = .ok c)
    (hgenerate : generate c settings = .ok (some a))
    (vacancy : Vacancy sources placed next path)
    (hknown : (SymbolTable.ofCorpus c).contains next.module = true)
    (hfree : ∀ names, (SymbolTable.ofCorpus c).isModule (next.module.extend names) = false)
    (hglobs : (SymbolTable.ofCorpus c).Unglobbed
      (Emission.Holds ⟨settings.module, settings.container⟩ next.module))
    (hparse : Grammar.parseFile a.contents =
      .ok (Emission.items ⟨settings.module, settings.container⟩ attributes owner)) :
    ∃ (c' : Corpus) (file : SourceFile),
      Corpus.ofSources (sources ++ [(path, a.contents)]) = .ok c' ∧
      file.path = path ∧ file.module = next.module ∧ c'.files.Perm (file :: c.files) ∧
      generate c' settings = .ok (some a) := by
  obtain ⟨before, after, hsplit, hcorpus'⟩ := vacancy.ofSources hloads hcorpus hparse
  obtain ⟨files⟩ := c
  obtain rfl : files = before ++ after := hsplit
  refine ⟨_, _, hcorpus', rfl, rfl, List.perm_middle, ?_⟩
  exact generate_beside hknown hfree hglobs hgenerate

/-- The root of a crate with a declared module and one written in place. A marker is asked for by a
path that begins like the generated module. -/
def blockText (block : String) : String :=
  "mod m; mod " ++ block ++ " \x7b #[g::Y] #[functions_worker::function(\"F\")] " ++
    "fn f() \x7b\x7d \x7d generate_functions_with!(g::Y);"

def besideBlock (block : String) : List (FilePath × String) :=
  [(⟨"lib.rs"⟩, blockText block)]

def briefSettings : Settings :=
  { Settings.standard with module := "g", container := "G" }

/-- What is generated for a list of names. -/
def briefArtifact (names : List String) : Artifact :=
  ⟨"functions_attributes.rs", Emission.join (Emission.lines ⟨"g", "G"⟩ [⟨⟨["g", "Y"]⟩, names⟩])⟩

def vacantModule : PendingModule :=
  ⟨⟨["crate", "m"]⟩, [(⟨"m.rs"⟩, ⟨"m"⟩), (⟨"m/mod.rs"⟩, ⟨"m"⟩)]⟩

deriving instance DecidableEq for PendingModule

def generatedFile : SourceFile :=
  ⟨⟨"m.rs"⟩, ⟨["crate", "m"]⟩, Emission.items ⟨"g", "G"⟩ [] "G", false⟩

/-- What the root of such a crate declares, says of its modules and leads to. -/
def IsBesideBlock (block : String) (items : List Item) : Prop :=
  (rootWith items).declaredModules ⟨""⟩ = [vacantModule] ∧
    Fact.ofFile (rootWith items) = [(.crateRoot, .module), (.crateRoot, .item "m"),
      (.crateRoot, .item block), (⟨["crate", block]⟩, .module), (⟨["crate", block]⟩, .item "f")] ∧
    (generate ⟨[rootWith items]⟩ briefSettings).toOption = some (some (briefArtifact ["F"]))

instance (block : String) (items : List Item) : Decidable (IsBesideBlock block items) :=
  inferInstanceAs (Decidable (_ ∧ _))

theorem parse_briefArtifact : Grammar.parseFile (briefArtifact ["F"]).contents =
    .ok (Emission.items ⟨"g", "G"⟩ [] "G") := by
  have sound : Emission.Sound ⟨"g", "G"⟩ [⟨⟨["g", "Y"]⟩, ["F"]⟩] := by
    refine ⟨by decide, by decide, by simp, ?_⟩
    simp only [List.forall_mem_singleton]
    exact ⟨by simp, by decide⟩
  rcases sound.parses with ⟨-, hparse⟩ | ⟨⟨e, he, hword⟩, -⟩
  · exact hparse
  · obtain rfl := List.mem_singleton.mp he
    exact absurd hword (by decide)

section

variable {block : String} {items : List Item}

theorem textOf?_besideBlock (block : String) (path : FilePath) :
    textOf? (besideBlock block) path =
      if path = ⟨"lib.rs"⟩ then some (blockText block) else none :=
  SourceTable.textOf?_library (blockText block) path

theorem rootAmong_besideBlock (block : String) :
    SourceTable.rootAmong (besideBlock block) = ⟨"lib.rs"⟩ :=
  SourceTable.rootAmong_library (blockText block)

theorem loads_besideBlock (hparse : Grammar.parseFile (blockText block) = .ok items)
    (h : IsBesideBlock block items) :
    SourceTable.Loads (besideBlock block) [.ofRoot ⟨"lib.rs"⟩ items] := by
  let finish : Loader.State := ⟨[], [.ofRoot ⟨"lib.rs"⟩ items]⟩
  have hstart : Loader.start ⟨"lib.rs"⟩ items = ⟨[vacantModule], finish.placed⟩ := by
    have hdeclared : (Placed.ofRoot ⟨"lib.rs"⟩ items).file.declaredModules
        (Placed.ofRoot ⟨"lib.rs"⟩ items).directory = [vacantModule] := h.1
    rw [Loader.start, Loader.State.add, hdeclared]
    rfl
  have habsent : ∀ m ∈ [vacantModule], ∀ candidate ∈ m.candidates,
      (SourceTable.ofList (besideBlock block)).loader.read candidate.1 = .ok none := by
    refine List.forall_mem_singleton.mpr fun candidate member => ?_
    have hpath : candidate.1 ≠ ⟨"lib.rs"⟩ := by
      revert candidate
      decide
    simp [SourceTable.loader, SourceTable.lookup_ofList, textOf?_besideBlock, hpath]
  have htext : (SourceTable.ofList (besideBlock block)).loader.text? ⟨"lib.rs"⟩ =
      some (blockText block) := by
    rw [SourceTable.text?_loader, textOf?_besideBlock]
    rfl
  rw [SourceTable.Loads, rootAmong_besideBlock]
  have hsteps : Relation.ReflTransGen (SourceTable.ofList (besideBlock block)).loader.Step
      (Loader.start ⟨"lib.rs"⟩ items) finish := by
    rw [hstart]
    exact Loader.steps_of_absent (s := finish) habsent
  exact .ends htext hparse hsteps rfl

theorem ofSources_besideBlock (hparse : Grammar.parseFile (blockText block) = .ok items)
    (h : IsBesideBlock block items) :
    Corpus.ofSources (besideBlock block) = .ok ⟨[rootWith items]⟩ := by
  refine Corpus.ofSources_eq_ok_iff.mpr ⟨_, loads_besideBlock hparse h, ?_⟩
  simp [Placed.ofRoot, rootWith]

theorem vacancy_besideBlock (h : IsBesideBlock block items) :
    Vacancy (besideBlock block) [.ofRoot ⟨"lib.rs"⟩ items] vacantModule ⟨"m.rs"⟩ := by
  have hdeclares : ∀ next, (Placed.ofRoot ⟨"lib.rs"⟩ items).Declares next ↔
      next = vacantModule := by
    intro next
    rw [← Placed.mem_declaredModules_iff]
    change next ∈ (rootWith items).declaredModules ⟨""⟩ ↔ _
    rw [h.1, List.mem_singleton]
  constructor
  case normal => decide +kernel
  case notRoot => decide
  case declared => exact ⟨_, List.mem_singleton.mpr rfl, (hdeclares _).mpr rfl⟩
  case candidate => decide
  case only =>
    intro p hp other hother _
    obtain rfl := List.mem_singleton.mp hp
    exact (hdeclares other).mp hother
  case absent =>
    apply List.find?_eq_none.mpr
    intro candidate member
    have hpath : candidate.1 ≠ ⟨"lib.rs"⟩ := by
      revert candidate
      decide
    simp [textOf?_besideBlock, hpath]

/-- No file of such a crate imports anything. -/
theorem unglobbed_besideBlock (h : IsBesideBlock block items) (inside : ItemPath → Prop) :
    (SymbolTable.ofCorpus ⟨[rootWith items]⟩).Unglobbed inside := by
  intro depth _ q target member
  have hfacts : (SymbolTable.ofCorpus ⟨[rootWith items]⟩).facts = Fact.ofFile (rootWith items) := by
    simp [SymbolTable.ofCorpus]
  rw [SymbolTable.mem_globs, hfacts, h.2.1] at member
  simp at member

theorem unglobbed_besideBlock_generated (h : IsBesideBlock block items) (inside : ItemPath → Prop) :
    (SymbolTable.ofCorpus ⟨[rootWith items, generatedFile]⟩).Unglobbed inside := by
  intro depth _ q target member
  have hfacts : (SymbolTable.ofCorpus ⟨[rootWith items, generatedFile]⟩).facts =
      Fact.ofFile (rootWith items) ++ Fact.ofFile generatedFile := by
    simp [SymbolTable.ofCorpus]
  rw [SymbolTable.mem_globs, hfacts, h.2.1, generatedFile, Emission.ofFile_items] at member
  simp [Fact.ofName] at member

end

/-- Beside a block of another name the generated file changes nothing. -/
theorem generate_again_beside_other : ∃ items,
    Corpus.ofSources (besideBlock "n") = .ok ⟨[rootWith items]⟩ ∧
    generate ⟨[rootWith items]⟩ briefSettings = .ok (some (briefArtifact ["F"])) ∧
    ∃ (c : Corpus) (file : SourceFile),
      Corpus.ofSources (besideBlock "n" ++ [(⟨"m.rs"⟩, (briefArtifact ["F"]).contents)]) = .ok c ∧
      file.path = ⟨"m.rs"⟩ ∧ file.module = vacantModule.module ∧
      c.files.Perm (file :: [rootWith items]) ∧
      generate c briefSettings = .ok (some (briefArtifact ["F"])) := by
  have hcheck : (Grammar.parseFile (blockText "n")).toOption.any
      (fun items => decide (IsBesideBlock "n" items)) = true := by
    decide +kernel
  obtain ⟨items, hparse, hblock⟩ := exists_ok_of_any hcheck
  have hitems : IsBesideBlock "n" items := of_decide_eq_true hblock
  have hcorpus := ofSources_besideBlock hparse hitems
  have hgenerate := ok_of_toOption hitems.2.2
  have hfacts : (SymbolTable.ofCorpus ⟨[rootWith items]⟩).facts = Fact.ofFile (rootWith items) := by
    simp [SymbolTable.ofCorpus]
  have hknown : (SymbolTable.ofCorpus ⟨[rootWith items]⟩).contains vacantModule.module = true := by
    have hitem : (SymbolTable.ofCorpus ⟨[rootWith items]⟩).hasItem .crateRoot "m" = true := by
      simp [SymbolTable.hasItem, hfacts, hitems.2.1]
    exact Bool.or_eq_true_iff.mpr (Or.inr hitem)
  have hfree : ∀ names, (SymbolTable.ofCorpus ⟨[rootWith items]⟩).isModule
      (vacantModule.module.extend names) = false := by
    intro names
    rw [SymbolTable.isModule, hfacts, hitems.2.1]
    simp [vacantModule, ItemPath.extend, ItemPath.crateRoot, ItemPath.crateWord]
  exact ⟨items, hcorpus, hgenerate,
    generate_again (loads_besideBlock hparse hitems) hcorpus hgenerate
    (vacancy_besideBlock hitems) hknown hfree (unglobbed_besideBlock hitems _) parse_briefArtifact⟩

/-- Where a block has the name of the declared module as well, the generated module comes to stand
in its scope, and a mark that meant another crate means the generated module now. -/
theorem generate_changed_beside_same : ∃ items,
    Corpus.ofSources (besideBlock "m") = .ok ⟨[rootWith items]⟩ ∧
    SourceTable.Loads (besideBlock "m") [.ofRoot ⟨"lib.rs"⟩ items] ∧
    generate ⟨[rootWith items]⟩ briefSettings = .ok (some (briefArtifact ["F"])) ∧
    Vacancy (besideBlock "m") [.ofRoot ⟨"lib.rs"⟩ items] vacantModule ⟨"m.rs"⟩ ∧
    (SymbolTable.ofCorpus ⟨[rootWith items]⟩).Unglobbed
      (Emission.Holds ⟨"g", "G"⟩ vacantModule.module) ∧
    Grammar.parseFile (briefArtifact ["F"]).contents = .ok (Emission.items ⟨"g", "G"⟩ [] "G") ∧
    Corpus.ofSources (besideBlock "m" ++ [(⟨"m.rs"⟩, (briefArtifact ["F"]).contents)]) =
      .ok ⟨[rootWith items, generatedFile]⟩ ∧
    (SymbolTable.ofCorpus ⟨[rootWith items, generatedFile]⟩).Unglobbed
      (Emission.Holds ⟨"g", "G"⟩ vacantModule.module) ∧
    generate ⟨[rootWith items, generatedFile]⟩ briefSettings = .ok (some (briefArtifact [])) ∧
    briefArtifact [] ≠ briefArtifact ["F"] := by
  have hcheck : (Grammar.parseFile (blockText "m")).toOption.any
      (fun items => decide (IsBesideBlock "m" items ∧
        (generate ⟨[rootWith items, generatedFile]⟩ briefSettings).toOption =
          some (some (briefArtifact [])))) = true := by
    decide +kernel
  obtain ⟨items, hparse, hblock⟩ := exists_ok_of_any hcheck
  obtain ⟨hitems, hgenerate'⟩ := of_decide_eq_true hblock
  have hcorpus := ofSources_besideBlock hparse hitems
  obtain ⟨before, after, hsplit, hcorpus'⟩ := (vacancy_besideBlock hitems).ofSources
    (loads_besideBlock hparse hitems) hcorpus parse_briefArtifact
  have hordered := Corpus.pairwise_ofSources hcorpus'
  have hafter : before = [rootWith items] ∧ after = [] := by
    rcases List.append_eq_singleton_iff.mp hsplit.symm with ⟨rfl, rfl⟩ | hfront
    · -- the path of the generated file is the later one
      have hlt : (FilePath.mk "m.rs").compare ⟨"lib.rs"⟩ = .lt :=
        (List.pairwise_cons.mp hordered).1 (rootWith items) (by simp)
      exact absurd hlt (by decide +kernel)
    · exact hfront
  obtain ⟨rfl, rfl⟩ := hafter
  exact ⟨items, hcorpus, loads_besideBlock hparse hitems, ok_of_toOption hitems.2.2,
    vacancy_besideBlock hitems, unglobbed_besideBlock hitems _, parse_briefArtifact, hcorpus',
    unglobbed_besideBlock_generated hitems _, ok_of_toOption hgenerate', by decide +kernel⟩

end Pass

end MarkerIndex
