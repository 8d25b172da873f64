import MarkerIndex.Proofs.DividedFile
import MarkerIndex.Proofs.KnownItems
import MarkerIndex.Proofs.ListedSources
import MarkerIndex.Proofs.TakenOut
/-!
A module that is written in place and becomes a file of its own. The crate then says the same of
every module, if in another order, so that every path means what it meant. The same lists are asked
for, and each has the same names; only the order of names can change, as the functions of the module
are met where its file stands among the others.
-/

namespace MarkerIndex

open PendingModule (Site candidatesOf)

/-- Every module of the crate is one file or one block. -/
def Corpus.OccupiesOnce (c : Corpus) : Prop :=
  ((SymbolTable.ofCorpus c).facts.filter (·.2 = .module)).Nodup

instance (c : Corpus) : Decidable c.OccupiesOnce :=
  inferInstanceAs (Decidable (List.Nodup _))

/-- In `sources'` the module `name`, which holds `nested` at `home` in the file `p` of the crate,
has the file at `path`, and `left` are the other items of `p` with its declaration. Both texts may
be laid out in any way. -/
structure Extraction (sources sources' : List (FilePath × String))
    (placed : List Placed) (p : Placed)
    (home : Site) (name : String) (nested left : List Item) (path : FilePath) : Prop where
  member : p ∈ placed
  takenOut : Item.TakenOut p.site p.file.items home name nested left
  absent : ∀ candidate ∈ candidatesOf home name none, textOf? sources candidate.1 = none
  candidate : path ∈ (candidatesOf home name none).map (·.1)
  notRoot : path ≠ ⟨"lib.rs"⟩
  others : ∀ other, other ≠ p.file.path → other ≠ path →
  textOf? sources' other = textOf? sources other
  remaining : ∃ text items, textOf? sources' p.file.path = some text ∧
    Grammar.parseFile text = .ok items ∧ Item.unplacedAll items = Item.unplacedAll left
  extracted : ∃ text items, textOf? sources' path = some text ∧
    Grammar.parseFile text = .ok items ∧ Item.unplacedAll items = Item.unplacedAll nested

/-- A file with its text laid out in another way declares the same modules. -/
theorem Placed.declares_alike {q : Placed} {site : Site} {items others : List Item}
    {next : PendingModule}
    (hsite : q.site = site) (hitems : q.file.items = items)
    (h : Item.unplacedAll items = Item.unplacedAll others) :
    q.Declares next ↔ next ∈ PendingModule.declaredAll site others := by
  rw [← mem_declaredModules_iff, SourceFile.declaredModules, hitems]
  change next ∈ PendingModule.declaredAll q.site items ↔ _
  rw [hsite, PendingModule.declaredAll_alike site h]

/-- A file declares what a block of the same names declares, if it has the items of the block. -/
theorem Placed.declares_as_block {added : Placed} {block : Site} {names : List String}
    {nested : List Item}
    (hadded : added.site.Follows names) (hblock : block.Follows names)
    (hnested : Item.FollowNames nested)
    (hitems : Item.unplacedAll added.file.items = Item.unplacedAll nested) {other : PendingModule} :
    added.Declares other ↔ other ∈ PendingModule.declaredAll block nested := by
  rw [Placed.declares_alike rfl rfl hitems, PendingModule.mem_declaredAll_iff,
    PendingModule.mem_declaredAll_iff]
  exact ⟨fun h => h.of_follows hadded hblock hnested, fun h => h.of_follows hblock hadded hnested⟩

namespace Extraction

open SourceTable

variable {sources sources' : List (FilePath × String)} {placed : List Placed} {p : Placed}
  {home : Site} {name : String} {nested left : List Item} {path : FilePath}

/-- The root of the crate is where it was. -/
theorem rootAmong_eq (extraction : Extraction sources sources' placed p home name nested left path)
    (closure : IsModuleClosure (textOf? sources) Grammar.parseFile (rootAmong sources) placed) :
    rootAmong sources' = rootAmong sources := by
  have hlib : (textOf? sources' ⟨"lib.rs"⟩).isSome = (textOf? sources ⟨"lib.rs"⟩).isSome := by
    by_cases hpath : (⟨"lib.rs"⟩ : FilePath) = p.file.path
    · obtain ⟨text, htext, -⟩ := closure.read p extraction.member
      obtain ⟨text', _, htext', -⟩ := extraction.remaining
      rw [hpath, htext, htext']
      rfl
    · rw [extraction.others _ hpath (Ne.symm extraction.notRoot)]
  rw [SourceTable.rootAmong_eq, SourceTable.rootAmong_eq, hlib]

/-- With the module taken out, the file declares it in place of what is declared inside of it. -/
theorem declares_iff (extraction : Extraction sources sources' placed p home name nested left path)
    (hpitems : Item.FollowNames p.file.items) {items : List Item}
    (hleft : Item.unplacedAll items = Item.unplacedAll left) :
    ∃ before after : List PendingModule,
      (∀ other, p.Declares other ↔
        other ∈ before ++ PendingModule.declaredAll (home.inside name []) nested ++ after) ∧
      ∀ other, (p.replaced p.file.path items).Declares other ↔
        other ∈ before ++ ⟨home.module.join name, candidatesOf home name none⟩ :: after := by
  obtain ⟨before, after, hbefore, hafter⟩ := extraction.takenOut.declared hpitems
  refine ⟨before, after, fun other => ?_, fun other => ?_⟩
  · rw [← hbefore]
    exact Placed.declares_alike rfl rfl rfl
  · rw [← hafter]
    exact Placed.declares_alike rfl (if_pos rfl) hleft

/-- The file of the crate is divided. -/
theorem division (extraction : Extraction sources sources' placed p home name nested left path)
    (closure : IsModuleClosure (textOf? sources) Grammar.parseFile (rootAmong sources) placed)
    (hitems : ∀ q ∈ placed, Item.FollowNames q.file.items) :
    ∃ items added, Item.unplacedAll items = Item.unplacedAll left ∧
      Item.unplacedAll added.file.items = Item.unplacedAll nested ∧
      added.file.module = home.module.join name ∧ added.file.isRoot = false ∧
      Division (textOf? sources) (textOf? sources') Grammar.parseFile placed p items
        ⟨home.module.join name, candidatesOf home name none⟩ added := by
  have hroot : (rootAmong sources).directory = ⟨""⟩ := by
    unfold rootAmong
    split <;> rfl
  obtain ⟨names, hsite⟩ := closure.follows hroot hitems extraction.member
  have hpitems := hitems p extraction.member
  obtain ⟨hplain, hname, hnested, above, hhome⟩ := extraction.takenOut.follows hsite hpitems
  obtain ⟨text, items, htext, hparse, hleft⟩ := extraction.remaining
  obtain ⟨text', items', htext', hparse', hinside⟩ := extraction.extracted
  let next : PendingModule := ⟨home.module.join name, candidatesOf home name none⟩
  have hnext : next.Follows above name := hhome.next hname
  obtain ⟨⟨file, own⟩, hcandidate, hfile⟩ := List.mem_map.mp extraction.candidate
  obtain rfl : file = path := hfile
  let added : Placed := ⟨⟨file, next.module, items', false⟩, own⟩
  have hblock : (home.inside name []).Follows (above ++ [name]) := hhome.inside hname hplain rfl
  have hadded : added.site.Follows (above ++ [name]) :=
    ⟨hnext.words, hnext.module, hnext.directory hcandidate⟩
  have hmoved : ∀ other, added.Declares other ↔
      other ∈ PendingModule.declaredAll (home.inside name []) nested :=
    fun _ => Placed.declares_as_block hadded hblock hnested hinside
  obtain ⟨before, after, hdeclared, hdeclared'⟩ := extraction.declares_iff hpitems hleft
  refine ⟨items, added, hleft, hinside, rfl, rfl, ?_⟩
  constructor
  case member => exact extraction.member
  case follows =>
    intro q hq other hother
    obtain ⟨names, hsite⟩ := closure.follows hroot hitems hq
    exact PendingModule.Declares.follows hother hsite (hitems q hq)
  case nextFollows => exact ⟨above, name, hnext⟩
  case absent => exact extraction.absent
  case candidate => exact hcandidate
  case module => rfl
  case notRoot => rfl
  case others => exact extraction.others
  case remaining => exact ⟨text, htext, hparse⟩
  case extracted => exact ⟨text', htext', hparse'⟩
  case declares => exact (hdeclared' _).mpr List.mem_append_cons_self
  case divided =>
    intro other hother
    rw [hdeclared', hmoved]
    rcases List.mem_append.mp ((hdeclared other).mp hother) with hother | hafter
    · rcases List.mem_append.mp hother with hbefore | hinner
      · exact Or.inl (List.mem_append_left _ hbefore)
      · exact Or.inr hinner
    · exact Or.inl (List.mem_append_right _ (List.mem_cons_of_mem _ hafter))
  case kept =>
    intro other hother
    rw [hdeclared]
    rcases List.mem_append.mp ((hdeclared' other).mp hother) with hbefore | hother
    · exact Or.inl (List.mem_append_left _ (List.mem_append_left _ hbefore))
    · rcases List.mem_cons.mp hother with hnext | hafter
      · exact Or.inr hnext
      · exact Or.inl (List.mem_append_right _ hafter)
  case moved =>
    intro other hother
    rw [hdeclared]
    rw [hmoved] at hother
    exact List.mem_append_left _ (List.mem_append_right _ hother)

end Extraction

/-- A stretch of a list may stand anywhere among the rest. -/
theorem perm_moved {α : Type} {before after before' after' moved : List α}
    (h : before' ++ after' = before ++ after) :
    (before' ++ moved ++ after').Perm (before ++ moved ++ after) := by
  have hfront : ∀ front back : List α,
      (front ++ moved ++ back).Perm (moved ++ (front ++ back)) := by
    intro front back
    rw [← List.append_assoc]
    exact List.perm_append_comm.append_right back
  apply (hfront before' after').trans
  rw [h]
  exact (hfront before after).symm

/-- The files `before` and `after` are those of the crate, with `items` in `f`. These are laid out
like the items of `f` with a module taken out, and those of `added` like the items of the module. -/
structure Corpus.Divided (c : Corpus) (f added : SourceFile) (items : List Item)
    (before after : List SourceFile) : Prop where
  member : f ∈ c.files
  distinct : (c.files.map (·.path)).Nodup
  files : c.files.map (SourceFile.replaced f.path items) = before ++ after
  takenOut : ∃ site home name nested left, site.module = f.module ∧
    Item.TakenOut site f.items home name nested left ∧
    Item.unplacedAll items = Item.unplacedAll left ∧
    Item.unplacedAll added.items = Item.unplacedAll nested ∧ added.module = home.module.join name
  notRoot : added.isRoot = false

/-- The sources are loaded, with the file of the module among the other files. -/
theorem Extraction.ofSources {sources sources' : List (FilePath × String)} {placed : List Placed}
    {p : Placed} {home : Site} {name : String} {nested left : List Item}
    {path : FilePath} {c : Corpus}
    (extraction : Extraction sources sources' placed p home name nested left path)
    (hloads : SourceTable.Loads sources placed) (hcorpus : Corpus.ofSources sources = .ok c)
    (hfound : c.FindsModulesByName) (hplain : c.NamesModulesPlainly) :
    ∃ items added before after, c.Divided p.file added items before after ∧
      Corpus.ofSources sources' = .ok ⟨before ++ added :: after⟩ := by
  have closure := Corpus.isModuleClosure_of_loads hloads
  have hfiles := Corpus.files_perm_of_loads hloads hcorpus
  have hitems : ∀ q ∈ placed, Item.FollowNames q.file.items := by
    intro q hq
    have hmember : q.file ∈ c.files := hfiles.mem_iff.mpr (List.mem_map_of_mem hq)
    obtain ⟨text, -, hparse⟩ := closure.read q hq
    exact ⟨hplain _ hmember, hfound _ hmember, Grammar.allSpelled_of_parseFile hparse⟩
  obtain ⟨items, added, hleft, hnested, hmodule, hinner, division⟩ :=
    extraction.division closure hitems
  let replaced := SourceFile.replaced p.file.path items
  let placed' := added :: placed.map (Placed.replaced p.file.path items)
  have closure' :
      IsModuleClosure (textOf? sources') Grammar.parseFile (SourceTable.rootAmong sources')
      placed' := by
    rw [extraction.rootAmong_eq closure]
    exact division.isModuleClosure closure
  obtain ⟨⟨files⟩, hcorpus', hloaded⟩ :=
    Corpus.ofSources_of_closure closure' (division.coherent closure)
  have hfiles' : files.Perm (added.file :: c.files.map replaced) :=
    calc
      files.Perm (placed'.map (·.file)) := hloaded
      _ = added.file :: (placed.map (·.file)).map replaced := by
        simp [placed', Placed.replaced, replaced, Function.comp_def]
      List.Perm _ (added.file :: c.files.map replaced) := (hfiles.symm.map replaced).cons _
  have hordered : (c.files.map replaced).Pairwise fun f g => f.path.compare g.path = .lt :=
    List.pairwise_map.mpr (Corpus.pairwise_ofSources hcorpus)
  obtain ⟨before, after, hsplit, hsplit'⟩ :=
    exists_split_of_pairwise (fun _ _ => FilePath.not_compare_eq_lt) hordered
      (Corpus.pairwise_ofSources hcorpus') hfiles'
  refine ⟨items, added.file, before, after, ?_, ?_⟩
  · constructor
    case member => exact hfiles.mem_iff.mpr (List.mem_map_of_mem extraction.member)
    case distinct =>
      rw [(hfiles.map (·.path)).nodup_iff, List.map_map]
      exact closure.distinct
    case files => exact hsplit
    case takenOut =>
        exact ⟨_, home, name, nested, left, rfl, extraction.takenOut, hleft, hnested, hmodule⟩
    case notRoot => exact hinner
  · rw [hcorpus']
    exact congrArg (fun files => Except.ok (Corpus.mk files)) hsplit'

namespace Corpus.Divided

variable {c : Corpus} {f added : SourceFile} {items : List Item} {before after : List SourceFile}
  (divided : c.Divided f added items before after)

include divided

/-- The divided file stands where it stood, and the others are what they were. -/
theorem split : ∃ front back, c.files = front ++ f :: back ∧
    before ++ after = front ++ f.replaced f.path items :: back := by
  obtain ⟨front, back, hfiles⟩ := List.append_of_mem divided.member
  have hdistinct := divided.distinct
  rw [hfiles, List.map_append, List.map_cons, List.nodup_middle, List.nodup_cons, ← List.map_append]
    at hdistinct
  have hothers : ∀ g ∈ front ++ back, g.replaced f.path items = g := by
    intro g hg
    have hne : g.path ≠ f.path := fun hsame =>
      hdistinct.1 (hsame ▸ List.mem_map_of_mem (f := SourceFile.path) hg)
    simp only [SourceFile.replaced, if_neg hne]
  obtain ⟨hfront, hback⟩ := List.forall_mem_append.mp hothers
  refine ⟨front, back, hfiles, ?_⟩
  rw [← divided.files, hfiles, List.map_append, List.map_cons, List.map_congr_left hfront,
    List.map_congr_left hback, List.map_id', List.map_id']

/-- What the files hold, one after the other, has lost a stretch in the middle, which the added file
holds. -/
theorem exists_stretch {α : Type} (contents : SourceFile → List α) {above below : List α}
    (hwhole : contents f = above ++ contents added ++ below)
    (hpart : contents (f.replaced f.path items) = above ++ below) :
    ∃ head tail, c.files.flatMap contents = head ++ contents added ++ tail ∧
      before.flatMap contents ++ after.flatMap contents = head ++ tail := by
  obtain ⟨front, back, hfiles, hrest⟩ := divided.split
  refine ⟨front.flatMap contents ++ above, below ++ back.flatMap contents, ?_, ?_⟩
  · simp [hfiles, hwhole]
  · rw [← List.flatMap_append, hrest]
    simp [hpart]

/-- Of every module the same is said. -/
theorem factsOf (hplain : c.NamesModulesPlainly) (honce : c.OccupiesOnce) (m : ItemPath) :
    (SymbolTable.ofCorpus ⟨before ++ added :: after⟩).factsOf m =
      (SymbolTable.ofCorpus c).factsOf m := by
  obtain ⟨site, home, name, nested, left, hsite, htaken, hleft, hnested, hmodule⟩ :=
    divided.takenOut
  obtain ⟨above, below, hfacts, hothers⟩ := htaken.facts (hplain f divided.member)
  have hadded : Fact.ofFile added =
      (home.module.join name, .module) :: Fact.ofItems (home.module.join name) nested := by
    rw [Fact.ofFile, hmodule, Fact.ofItems_alike _ hnested]
  have hwhole : Fact.ofFile f = (f.module, .module) :: above ++ Fact.ofFile added ++ below := by
    rw [Fact.ofFile, ← hsite, hfacts, hadded]
    simp
  have hpart : Fact.ofFile (f.replaced f.path items) = (f.module, .module) :: above ++ below := by
    rw [Fact.ofFile, SourceFile.replaced, if_pos rfl, Fact.ofItems_alike _ hleft, ← hsite, hothers]
    simp
  obtain ⟨head, tail, hc, hsame⟩ := divided.exists_stretch Fact.ofFile hwhole hpart
  change (SymbolTable.ofCorpus c).facts = _ at hc
  have hc' : (SymbolTable.ofCorpus ⟨before ++ added :: after⟩).facts =
      before.flatMap Fact.ofFile ++ Fact.ofFile added ++ after.flatMap Fact.ofFile := by
    simp [SymbolTable.ofCorpus]
  have htold : Fact.Told (head ++ tail) := by
    rw [← hsame, ← List.flatMap_append]
    exact Fact.told_ofFiles _
  rw [OccupiesOnce, hc] at honce
  rw [SymbolTable.factsOf, SymbolTable.factsOf, hc, hc']
  exact congrArg (List.map (·.2))
    (Fact.filter_moved hsame (Fact.told_module _ _) htold honce m)

/-- The root file is the one that it was, left with other items if it is the divided one. -/
theorem root? : Corpus.root? ⟨before ++ added :: after⟩ =
    c.root?.map (SourceFile.replaced f.path items) := by
  have hskip : Corpus.root? ⟨before ++ added :: after⟩ = (before ++ after).find? (·.isRoot) := by
    simp [Corpus.root?, List.find?_append, divided.notRoot]
  rw [hskip, ← divided.files, List.find?_map, Corpus.root?]
  rfl

/-- Directives ask for the same lists, where paths mean the same. -/
theorem markers {t t' : SymbolTable} {settings : Settings} {found : List ItemPath}
    (hresolve : ∀ m p, t'.resolvePath m p = t.resolvePath m p)
    (hcontains : ∀ p, t.contains p = true → t'.contains p = true)
    (h : Directive.markers c t settings = .ok found) :
    Directive.markers ⟨before ++ added :: after⟩ t' settings = .ok found := by
  cases hroot : c.root? with
  | none =>
      have hroot' := divided.root?
      rw [hroot] at hroot'
      simp only [Directive.markers, hroot] at h
      simpa only [Directive.markers, hroot', Option.map_none] using h
  | some root =>
      have hroot' := divided.root?
      rw [hroot, Option.map_some] at hroot'
      refine Directive.markers_alike hroot hroot' rfl ?_ (hresolve _) hcontains h
      by_cases hpath : root.path = f.path
      · have hmember : root ∈ c.files := List.mem_of_find?_eq_some hroot
        obtain rfl : root = f :=
          List.inj_on_of_nodup_map divided.distinct hmember divided.member hpath
        obtain ⟨_, _, _, _, left, -, htaken, hleft, -⟩ := divided.takenOut
        rw [SourceFile.replaced, if_pos rfl, hleft, htaken.calls]
      · rw [SourceFile.replaced, if_neg hpath]

/-- The same functions are marked, in another order and at other places. -/
theorem declarations (hplain : c.NamesModulesPlainly) {t t' : SymbolTable} (registration : ItemPath)
    (hresolve : ∀ m p, t'.resolvePath m p = t.resolvePath m p) :
    ((Declaration.ofCorpus t' registration ⟨before ++ added :: after⟩).map
      Declaration.unplaced).Perm
      ((Declaration.ofCorpus t registration c).map Declaration.unplaced) := by
  obtain ⟨site, home, name, nested, left, hsite, htaken, hleft, hnested, hmodule⟩ :=
    divided.takenOut
  obtain ⟨above, below, hfunctions, hothers⟩ :=
    htaken.functions (hplain f divided.member) t registration f.path
  let ofFile (g : SourceFile) : List Declaration :=
    (Declaration.ofItems t registration ⟨g.path, g.module, none⟩ g.items).map Declaration.unplaced
  have hcorpus : ∀ files : List SourceFile,
      (Declaration.ofCorpus t registration ⟨files⟩).map Declaration.unplaced =
        files.flatMap ofFile := by
    intro files
    rw [Declaration.ofCorpus, List.map_flatMap]
  have hadded : ofFile added =
      (Declaration.ofItems t registration ⟨f.path, home.module.join name, none⟩ nested).map
        Declaration.unplaced := by
    have hplace : (Declaration.Place.mk added.path added.module none).unplaced =
        (Declaration.Place.mk f.path (home.module.join name) none).unplaced := by
      rw [hmodule]
      rfl
    exact Declaration.ofItems_alike t registration hplace hnested
  have hwhole : ofFile f = above.map Declaration.unplaced ++ ofFile added ++
      below.map Declaration.unplaced := by
    rw [hadded, ← List.map_append, ← List.map_append, ← hfunctions, hsite]
  have hpart : ofFile (f.replaced f.path items) =
      above.map Declaration.unplaced ++ below.map Declaration.unplaced := by
    rw [← List.map_append, ← hothers, hsite]
    have hitems : Item.unplacedAll (f.replaced f.path items).items = Item.unplacedAll left := by
      rw [SourceFile.replaced, if_pos rfl, hleft]
    exact Declaration.ofItems_alike t registration rfl hitems
  obtain ⟨head, tail, hc, hsame⟩ := divided.exists_stretch ofFile hwhole hpart
  have hc' : (Declaration.ofCorpus t' registration ⟨before ++ added :: after⟩).map
      Declaration.unplaced =
      before.flatMap ofFile ++ ofFile added ++ after.flatMap ofFile := by
    rw [Declaration.ofCorpus_congr fun _ _ _ _ => hresolve _ _, hcorpus]
    simp
  rw [hc', show c = ⟨c.files⟩ from rfl, hcorpus, hc]
  exact perm_moved hsame

end Corpus.Divided

/-- The same functions in another order give lists of the same names. -/
theorem Classification.ofDeclarations_perm {found found' : List Declaration}
    (h : (found'.map Declaration.unplaced).Perm (found.map Declaration.unplaced))
    (markers : List ItemPath) :
    List.Forall₂ (fun e e' => e'.marker = e.marker ∧ e'.names.Perm e.names)
      (ofDeclarations found markers).entries (ofDeclarations found' markers).entries := by
  rw [ofDeclarations, ofDeclarations, List.forall₂_map_left_iff, List.forall₂_map_right_iff,
    List.forall₂_same]
  intro marker _
  refine ⟨rfl, ?_⟩
  rw [← Declaration.registrations_unplaced marker found,
    ← Declaration.registrations_unplaced marker found']
  exact (h.filter _).filterMap _

namespace Pass

/-- A module that is written in place may be moved to the file that its path says, where no
attribute places modules elsewhere, no module has a raw name and every module is one file or one
block. Then every path means what it meant, the same lists are asked for in the same order, and each
list has the same names, maybe in another order. -/
theorem analyze_extracted {sources sources' : List (FilePath × String)} {placed : List Placed}
    {c : Corpus} {settings : Settings} {report : Report} {p : Placed} {home : Site} {name : String}
    {nested left : List Item} {path : FilePath}
    (hloads : SourceTable.Loads sources placed) (hcorpus : Corpus.ofSources sources = .ok c)
    (hfound : c.FindsModulesByName) (hplain : c.NamesModulesPlainly) (honce : c.OccupiesOnce)
    (hreport : analyze c settings = .ok report)
    (extraction : Extraction sources sources' placed p home name nested left path) :
    ∃ (c' : Corpus) (report' : Report), Corpus.ofSources sources' = .ok c' ∧
      (∀ external m segments leadingColon, (c'.table external).resolve m segments leadingColon =
        (c.table external).resolve m segments leadingColon) ∧
      analyze c' settings = .ok report' ∧ report'.markers = report.markers ∧
      List.Forall₂ (fun e e' => e'.marker = e.marker ∧ e'.names.Perm e.names)
        report.classification.entries report'.classification.entries := by
  obtain ⟨items, added, before, after, divided, hcorpus'⟩ :=
    extraction.ofSources hloads hcorpus hfound hplain
  let c' : Corpus := ⟨before ++ added :: after⟩
  have hfacts : ∀ external m, (c'.table external).factsOf m = (c.table external).factsOf m :=
    fun _ => divided.factsOf hplain honce
  have hresolve : ∀ external m segments leadingColon,
      (c'.table external).resolve m segments leadingColon =
        (c.table external).resolve m segments leadingColon := fun external =>
    SymbolTable.resolve_congr rfl (hfacts external)
  have hpaths : ∀ external m p, (c'.table external).resolvePath m p =
      (c.table external).resolvePath m p := fun external m p => hresolve external m _ _
  have hcontains : ∀ external p, (c.table external).contains p = true →
      (c'.table external).contains p = true := by
    intro external p h
    rwa [SymbolTable.contains_congr (hfacts external)]
  obtain ⟨hmarkers, hlists⟩ := analyze_eq_ok_iff.mp hreport
  have hmarkers' : Directive.markers c' (firstTable c' settings) settings = .ok report.markers :=
    divided.markers (hpaths _) (hcontains _) hmarkers
  have hperm := divided.declarations hplain settings.registration
    (hpaths ([settings.registration, settings.directive] ++ report.markers))
  rw [← Corpus.withExternal_table, ← Corpus.withExternal_table] at hperm
  refine ⟨c', reportOf c' settings ((firstTable c' settings).withExternal report.markers)
    report.markers, hcorpus', hresolve, analyze_eq_ok_iff.mpr ⟨hmarkers', rfl⟩, rfl, ?_⟩
  rw [hlists]
  exact Classification.ofDeclarations_perm hperm report.markers

/-- What stands in a block inside a block, and in a file in place of it. -/
def markedText : String :=
  "#[crate::K] #[functions_worker::function(\"F\")] fn f() \x7b\x7d"

def besideText : String :=
  "struct K; generate_functions_with!(K);"

def blockInBlockText : String :=
  "mod a \x7b mod n \x7b " ++ markedText ++ " \x7d \x7d " ++ besideText

def fileInBlockText : String :=
  "mod a \x7b mod n; \x7d " ++ besideText

def blockInBlock : List (FilePath × String) :=
  [(⟨"lib.rs"⟩, blockInBlockText)]

def fileInBlock : List (FilePath × String) :=
  [(⟨"a/n.rs"⟩, markedText), (⟨"lib.rs"⟩, fileInBlockText)]

/-- The marked function, with its registration name at a place. -/
def markedItem (place : Position) : Item :=
  .function ⟨[⟨false, ⟨false, ["crate", "K"], 1⟩, .none⟩,
    ⟨false, ⟨false, ["functions_worker", "function"], 1⟩,
      .tokens [.leaf place (.literal "\"F\"")]⟩], "f", 1⟩

def besideItems (place : Position) : List Item :=
  [.declaration "K", .invocation ⟨false, ["generate_functions_with"], 1⟩ [.leaf place (.word "K")]]

def blockInBlockItems : List Item :=
  .submodule "a" [] (some [.submodule "n" [] (some [markedItem ⟨1, 58⟩])]) :: besideItems ⟨1, 113⟩

theorem parse_blockInBlockText : Grammar.parseFile blockInBlockText = .ok blockInBlockItems :=
  Item.parse_of_sameAll (by decide +kernel)

theorem textOf?_blockInBlock (path : FilePath) :
    textOf? blockInBlock path = if path = ⟨"lib.rs"⟩ then some blockInBlockText else none :=
  SourceTable.textOf?_library blockInBlockText path

theorem textOf?_fileInBlock (path : FilePath) : textOf? fileInBlock path =
    if path = ⟨"lib.rs"⟩ then some fileInBlockText
    else if path = ⟨"a/n.rs"⟩ then some markedText else none := by
  have hinner : (FilePath.mk "a/n.rs").normalize = ⟨"a/n.rs"⟩ := by decide +kernel
  rw [← SourceTable.textOf?_single hinner markedText path]
  exact @textOf?_concat [(⟨"a/n.rs"⟩, markedText)] ⟨"lib.rs"⟩ fileInBlockText
    SourceTable.normalize_library path

theorem loads_blockInBlock :
    SourceTable.Loads blockInBlock [.ofRoot ⟨"lib.rs"⟩ blockInBlockItems] :=
  SourceTable.loads_library parse_blockInBlockText rfl

theorem extraction_blockInBlock :
    Extraction blockInBlock fileInBlock [.ofRoot ⟨"lib.rs"⟩ blockInBlockItems]
      (.ofRoot ⟨"lib.rs"⟩ blockInBlockItems)
      ((Placed.ofRoot ⟨"lib.rs"⟩ blockInBlockItems).site.inside "a" []) "n" [markedItem ⟨1, 58⟩]
      (.submodule "a" [] (some [.submodule "n" [] none]) :: besideItems ⟨1, 113⟩) ⟨"a/n.rs"⟩ := by
  constructor
  case member => exact List.mem_singleton.mpr rfl
  case takenOut =>
    exact @Item.TakenOut.inside _ _ [] _ _ _ _ _ _ _ (@Item.TakenOut.here _ [] [] _ _ _ [] rfl)
  case absent =>
    intro candidate member
    have hpath : candidate.1 ≠ ⟨"lib.rs"⟩ := by
      revert candidate
      decide +kernel
    rw [textOf?_blockInBlock, if_neg hpath]
  case candidate => decide +kernel
  case notRoot => decide
  case others =>
    intro other hroot hinner
    have hroot : other ≠ ⟨"lib.rs"⟩ := hroot
    rw [textOf?_blockInBlock, textOf?_fileInBlock, if_neg hroot, if_neg hroot, if_neg hinner]
  case remaining =>
    let items : List Item :=
      .submodule "a" [] (some [.submodule "n" [] none]) :: besideItems ⟨1, 53⟩
    refine ⟨_, items, (textOf?_fileInBlock _).trans (if_pos rfl), ?_, rfl⟩
    exact Item.parse_of_sameAll (by decide +kernel)
  case extracted =>
    refine ⟨markedText, [markedItem ⟨1, 42⟩], textOf?_fileInBlock _, ?_, rfl⟩
    exact Item.parse_of_sameAll (by decide +kernel)

/-- With the inner block in a file the one list is asked for as before and has the one name. -/
theorem analyze_extracted_block : ∃ (c c' : Corpus) (report report' : Report),
    Corpus.ofSources blockInBlock = .ok c ∧ Corpus.ofSources fileInBlock = .ok c' ∧
    analyze c .standard = .ok report ∧ analyze c' .standard = .ok report' ∧
    report'.markers = [⟨["crate", "K"]⟩] ∧
    (∀ external m segments leadingColon, (c'.table external).resolve m segments leadingColon =
      (c.table external).resolve m segments leadingColon) ∧
    report'.classification = ⟨[⟨⟨["crate", "K"]⟩, ["F"]⟩]⟩ := by
  let c : Corpus := ⟨[(Placed.ofRoot ⟨"lib.rs"⟩ blockInBlockItems).file]⟩
  have hcorpus : Corpus.ofSources blockInBlock = .ok c :=
    Corpus.ofSources_library parse_blockInBlockText rfl
  have hcheck : (analyze c .standard).toOption.any (fun report =>
      decide (report.markers = [⟨["crate", "K"]⟩] ∧
        report.classification = ⟨[⟨⟨["crate", "K"]⟩, ["F"]⟩]⟩)) = true := by
    decide +kernel
  obtain ⟨report, hreport, hfound⟩ := exists_ok_of_any hcheck
  obtain ⟨hmarkers, hlists⟩ := of_decide_eq_true hfound
  obtain ⟨c', report', hcorpus', hresolve, hreport', hsame, hnames⟩ :=
    analyze_extracted loads_blockInBlock hcorpus (by decide +kernel) (by decide +kernel)
      (by decide +kernel) hreport extraction_blockInBlock
  refine ⟨c, c', report, report', hcorpus, hcorpus', hreport, hreport',
    hsame.trans hmarkers, hresolve, ?_⟩
  rw [hlists] at hnames
  obtain ⟨⟨marker, names⟩, rest, ⟨rfl, hperm⟩, hrest, hentries⟩ :=
    List.forall₂_cons_left_iff.mp hnames
  obtain rfl := List.forall₂_nil_left_iff.mp hrest
  obtain rfl : names = ["F"] := List.perm_singleton.mp hperm
  exact congrArg Classification.mk hentries

end Pass

end MarkerIndex
