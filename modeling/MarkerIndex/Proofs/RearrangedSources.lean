import MarkerIndex.Proofs.ClosedFiles
import MarkerIndex.Proofs.KnownItems
import MarkerIndex.Proofs.ListedSources
import MarkerIndex.Proofs.Rearranged
/-!
A crate with the items of its files in another order. The loader takes up declarations last first,
the symbol table overwrites what a name was bound to, glob imports are tried in their order, and
directives are read in theirs. Where no source may be meant by two declarations and no module binds
one name by two imports, nothing of this depends on an order that was not kept: the same files are
loaded for the same modules, every path means the same, and the same text is generated.
-/

namespace MarkerIndex

section

variable {α β : Type} {R : α → α → Prop} {g : α → List β} {list others : List α}

theorem flatMap_perm_of_forall₂ (h : List.Forall₂ R list others)
    (hperm : ∀ a b, R a b → (g a).Perm (g b)) : (list.flatMap g).Perm (others.flatMap g) := by
  induction h with
  | nil => exact .nil
  | cons hab _ ih =>
      rw [List.flatMap_cons, List.flatMap_cons]
      exact (hperm _ _ hab).append ih

theorem flatMap_eq_of_forall₂ (h : List.Forall₂ R list others) (hsame : ∀ a b, R a b → g a = g b) :
    list.flatMap g = others.flatMap g := by
  induction h with
  | nil => rfl
  | cons hab _ ih => rw [List.flatMap_cons, List.flatMap_cons, hsame _ _ hab, ih]

end

theorem Grammar.ne_underscore_of_isSegment {word : String} (h : IsSegment word) : word ≠ "_" := by
  rintro rfl
  exact absurd h (by decide)

/-- The path of an attribute has no underscore in it. -/
theorem Attribute.underscore_not_mem {a : Attribute} (h : Grammar.AllSegments a.words) :
    "_" ∉ a.path.segments := by
  rw [Attribute.words] at h
  split at h
  · next hkeyword => rw [hkeyword]; decide
  · exact fun member => Grammar.ne_underscore_of_isSegment (h "_" member) rfl

/-- One file with its items rearranged. -/
structure SourceFile.Rearranged (f f' : SourceFile) : Prop where
  path : f'.path = f.path
  module : f'.module = f.module
  isRoot : f'.isRoot = f.isRoot
  items : Item.Rearranged f.items f'.items

/-- The call at the place of an item is a directive. -/
def Item.isDirective (t : SymbolTable) (settings : Settings) (m : ItemPath) : Item → Bool
  | .invocation path _ => Directive.isDirective (t.resolvePath m path) settings.directive
  | _ => false

namespace Corpus

/-- What each import of the crate says of its module. -/
def imports (c : Corpus) : List (ItemPath × List Fact) :=
  c.files.flatMap fun f => Fact.importsOfAll f.module f.items

/-- No module, in whatever files and blocks, binds one name by two imports. An underscore is no
name. -/
def BindsOnce (c : Corpus) : Prop :=
  c.imports.Pairwise fun i j => i.1 = j.1 →
    ∀ name ∈ Fact.boundNames i.2, name ≠ "_" → name ∉ Fact.boundNames j.2

instance (c : Corpus) : Decidable c.BindsOnce :=
  inferInstanceAs (Decidable (List.Pairwise _ _))

/-- The same files in the same order, each with its items rearranged. -/
def Rearranged (c c' : Corpus) : Prop :=
  List.Forall₂ SourceFile.Rearranged c.files c'.files

/-- The directives of the root file stand in the same order, in whatever places. -/
def KeepsDirectives (c c' : Corpus) (settings : Settings) : Prop :=
  ∀ root root', c.root? = some root → c'.root? = some root' →
    let directive := Item.isDirective (Pass.firstTable c settings) settings root.module
    (root'.items.filter directive).map Item.unplaced =
      (root.items.filter directive).map Item.unplaced

namespace Rearranged

variable {c c' : Corpus} (h : c.Rearranged c')

include h

theorem facts : (SymbolTable.ofCorpus c).facts.Perm (SymbolTable.ofCorpus c').facts := by
  refine flatMap_perm_of_forall₂ h fun f f' hfile => ?_
  rw [Fact.ofFile, Fact.ofFile, hfile.module]
  exact (hfile.items.facts f.module).cons _

theorem imports : c.imports.Perm c'.imports := by
  refine flatMap_perm_of_forall₂ h fun f f' hfile => ?_
  rw [hfile.module]
  exact hfile.items.imports f.module

theorem globs (m : ItemPath) :
    (SymbolTable.ofCorpus c').globs m = (SymbolTable.ofCorpus c).globs m := by
  rw [SymbolTable.globs_eq, SymbolTable.globs_eq, SymbolTable.ofCorpus, SymbolTable.ofCorpus,
    List.filterMap_flatMap, List.filterMap_flatMap]
  refine (flatMap_eq_of_forall₂ h fun f f' hfile => ?_).symm
  rw [Fact.ofFile, Fact.ofFile, hfile.module, List.filterMap_cons, List.filterMap_cons,
    hfile.items.globs f.module m]

omit h in
theorem bound_facts (c : Corpus) (m : ItemPath) (name : String) :
    (SymbolTable.ofCorpus c).facts.filterMap (Fact.boundIn? m name) =
      c.imports.flatMap (Fact.targetsIn m name) := by
  rw [SymbolTable.ofCorpus, Corpus.imports, List.filterMap_flatMap, List.flatMap_assoc]
  congr 1
  funext f
  rw [Fact.ofFile, List.filterMap_cons]
  exact Fact.bound_ofItems f.module m name f.items

/-- A name is bound to what it was bound to, since no more than one import binds it. -/
theorem import? (hbound : c.BindsOnce) (m : ItemPath) {name : String} (hname : name ≠ "_") :
    (SymbolTable.ofCorpus c').import? m name = (SymbolTable.ofCorpus c).import? m name := by
  -- of two imports at most one has targets for the name, so these stand in the order of that import
  have hsingle : c.imports.Pairwise fun i j =>
      Fact.targetsIn m name i = [] ∨ Fact.targetsIn m name j = [] := by
    refine hbound.imp fun {i j} hij => ?_
    by_contra hboth
    obtain ⟨hi, hj⟩ := not_or.mp hboth
    obtain ⟨him, hiname⟩ := Fact.mem_boundNames_of_targetsIn hi
    obtain ⟨hjm, hjname⟩ := Fact.mem_boundNames_of_targetsIn hj
    exact hij (him.trans hjm.symm) name hiname hname hjname
  rw [SymbolTable.import?_eq, SymbolTable.import?_eq, bound_facts, bound_facts,
    flatMap_eq_of_perm h.imports hsingle]

theorem isModule (external : List ItemPath) (m : ItemPath) :
    (c'.table external).isModule m = (c.table external).isModule m := by
  rw [Bool.eq_iff_iff, SymbolTable.isModule_iff, SymbolTable.isModule_iff]
  exact exists_congr fun fact => h.facts.mem_iff.symm

theorem hasItem (external : List ItemPath) (m : ItemPath) (name : String) :
    (c'.table external).hasItem m name = (c.table external).hasItem m name := by
  rw [Bool.eq_iff_iff, SymbolTable.hasItem, SymbolTable.hasItem, List.contains_iff_mem,
    List.contains_iff_mem]
  exact h.facts.mem_iff.symm

theorem contains (external : List ItemPath) (p : ItemPath) :
    (c'.table external).contains p = (c.table external).contains p := by
  simp only [SymbolTable.contains, h.isModule, h.hasItem]

theorem resembles (parsed : c.Parsed) (hbound : c.BindsOnce) (external : List ItemPath) :
    SymbolTable.Resembles (fun _ => False) (· ≠ "_") (c.table external) (c'.table external) := by
  have spells := parsed.spells external
  constructor
  case external => rfl
  case isModule => exact fun m _ => h.isModule external m
  case declares => exact fun m name _ => by simp only [SymbolTable.declares, h.isModule, h.hasItem]
  case imports => exact fun m name _ hname => h.import? hbound m hname
  case globs => exact fun m _ => h.globs m
  case imported =>
    intro m name target himport word member
    exact Grammar.ne_underscore_of_isSegment
      ((spells.facts m _ (SymbolTable.mem_facts_of_import? himport)).2 word member)
  case globbed =>
    intro m target hglob word member
    exact Grammar.ne_underscore_of_isSegment
      (spells.facts m _ (SymbolTable.mem_globs.mp hglob) word member)
  case free | walk => exact fun _ hinside => hinside.elim

/-- Every path means the same in every module. -/
theorem resolve (parsed : c.Parsed) (hbound : c.BindsOnce) (external : List ItemPath) (m : ItemPath)
    {segments : List String} (hsegments : "_" ∉ segments) (leadingColon : Bool) :
    (c'.table external).resolve m segments leadingColon =
      (c.table external).resolve m segments leadingColon := by
  refine (h.resembles parsed hbound external).resolve ?_ id ?_ leadingColon
  · exact fun _ _ _ _ _ _ hinside => hinside.elim
  · rintro _ member rfl
    exact hsegments member

theorem root? : Option.Rel SourceFile.Rearranged c.root? c'.root? := by
  rw [Corpus.root?, Corpus.root?]
  obtain ⟨files⟩ := c
  obtain ⟨files'⟩ := c'
  change List.Forall₂ SourceFile.Rearranged files files' at h
  induction h with
  | nil => exact .none
  | @cons f f' files files' hfile _ ih =>
      cases hroot : f.isRoot with
      | true =>
          rw [List.find?_cons_of_pos hroot, List.find?_cons_of_pos (hfile.isRoot.trans hroot)]
          exact .some hfile
      | false =>
          have hroot' : f'.isRoot = false := hfile.isRoot.trans hroot
          rw [List.find?_cons_of_neg (by simp [hroot]), List.find?_cons_of_neg (by simp [hroot'])]
          exact ih

/-- The directives of both crates have the same arguments. -/
theorem arguments (parsed : c.Parsed) (parsed' : c'.Parsed) (hbound : c.BindsOnce)
    {settings : Settings}
    (hkept : c.KeepsDirectives c' settings) {root root' : SourceFile} (hroot : c.root? = some root)
    (hroot' : c'.root? = some root') (hmodule : root'.module = root.module) :
    (Directive.calls (Pass.firstTable c' settings) settings root').map
        (fun call => TokenTree.unplacedAll call.2) =
      (Directive.calls (Pass.firstTable c settings) settings root).map
        fun call => TokenTree.unplacedAll call.2 := by
  let t := Pass.firstTable c settings
  let argument? : Item → Option (List TokenTree)
    | .invocation _ body => some body
    | _ => none
  have hcalls : ∀ file : SourceFile, file.module = root.module →
      (Directive.calls t settings file).map (fun call => TokenTree.unplacedAll call.2) =
        ((file.items.filter (Item.isDirective t settings root.module)).map Item.unplaced).filterMap
          argument? := by
    intro file hfile
    rw [Directive.calls, hfile, List.map_filterMap, List.filterMap_map, List.filterMap_filter]
    refine List.filterMap_congr fun item _ => ?_
    cases item with
    | invocation path body =>
        cases hdirective :
          Directive.isDirective (t.resolvePath root.module path) settings.directive <;>
          simp [Item.isDirective, hdirective, Item.unplaced, argument?]
    | submodule name attributes content => cases content <;> rfl
    | _ => rfl
  have hsame : Directive.calls (Pass.firstTable c' settings) settings root' =
      Directive.calls t settings root' := by
    obtain ⟨text, htext⟩ := parsed'.items root' (List.mem_of_find?_eq_some hroot')
    have hwords := Item.allSpelled_iff.mp (Grammar.allSpelled_of_parseFile htext)
    refine List.filterMap_congr fun item member => ?_
    cases item with
    | invocation path body =>
        have hpath : "_" ∉ path.segments := fun hunderscore =>
          Grammar.ne_underscore_of_isSegment (hwords _ member "_" hunderscore) rfl
        have hresolve : (Pass.firstTable c' settings).resolvePath root'.module path =
            t.resolvePath root'.module path := h.resolve parsed hbound _ _ hpath _
        simp only [hresolve]
    | _ => rfl
  rw [hsame, hcalls root' hmodule, hcalls root rfl, hkept root root' hroot hroot']

/-- The same lists are asked for. -/
theorem markers (parsed : c.Parsed) (parsed' : c'.Parsed) (hbound : c.BindsOnce)
    {settings : Settings}
    (hkept : c.KeepsDirectives c' settings) (found : List ItemPath) :
    Directive.markers c' (Pass.firstTable c' settings) settings = .ok found ↔
      Directive.markers c (Pass.firstTable c settings) settings = .ok found := by
  have hresolve : ∀ m (p : WrittenPath), Grammar.AllSegments p.segments →
      (Pass.firstTable c' settings).resolvePath m p =
        (Pass.firstTable c settings).resolvePath m p :=
    fun m p hp => h.resolve parsed hbound _ m
      (fun member => Grammar.ne_underscore_of_isSegment (hp "_" member) rfl) _
  have hcontains := h.contains [settings.registration, settings.directive]
  have hroots := h.root?
  generalize hroot : c.root? = root?, hroot' : c'.root? = root?' at hroots
  cases hroots with
  | none => simp only [Directive.markers, hroot, hroot']
  | @some root root' hfile =>
      have harguments := h.arguments parsed parsed' hbound hkept hroot hroot' hfile.module
      constructor
      · refine Directive.markers_of_arguments hroot' hroot hfile.module.symm harguments.symm ?_ ?_
        · exact fun p hp => (hresolve _ p hp).symm
        · exact fun p hp => (hcontains p).symm.trans hp
      · refine Directive.markers_of_arguments hroot hroot' hfile.module harguments ?_ ?_
        · exact fun p hp => hresolve _ p hp
        · exact fun p hp => (hcontains p).trans hp

/-- The same functions are marked in the same order. -/
theorem declarations (parsed : c.Parsed) (parsed' : c'.Parsed) (hbound : c.BindsOnce)
    (external : List ItemPath) (registration : ItemPath) :
    (Declaration.ofCorpus (c'.table external) registration c').map Declaration.unplaced =
      (Declaration.ofCorpus (c.table external) registration c).map Declaration.unplaced := by
  have hresolve : Declaration.ofCorpus (c'.table external) registration c' =
      Declaration.ofCorpus (c.table external) registration c' := by
    refine Declaration.ofCorpus_congr fun s hs a ha => ?_
    have hwords := (Declaration.mem_standingIn.mp hs).allSegments parsed'
    exact h.resolve parsed hbound _ _
      (Attribute.underscore_not_mem (List.forall_mem_flatMap.mp hwords a ha)) _
  rw [hresolve, Declaration.ofCorpus, Declaration.ofCorpus, List.map_flatMap, List.map_flatMap]
  refine (flatMap_eq_of_forall₂ h fun f f' hfile => ?_).symm
  rw [hfile.path, hfile.module]
  exact hfile.items.functions _ registration ⟨f.path, f.module, none⟩

end Rearranged

end Corpus

/-- The same functions at other places give the same lists. -/
theorem Classification.ofDeclarations_alike {found found' : List Declaration}
    (h : found'.map Declaration.unplaced = found.map Declaration.unplaced)
    (markers : List ItemPath) :
    ofDeclarations found' markers = ofDeclarations found markers := by
  rw [ofDeclarations, ofDeclarations]
  congr 1
  refine List.map_congr_left fun marker _ => ?_
  rw [← Declaration.registrations_unplaced marker found',
    ← Declaration.registrations_unplaced marker found, h]

/-- The same text is generated, or none for both. -/
theorem Corpus.Rearranged.generate {c c' : Corpus} (h : c.Rearranged c') (parsed : c.Parsed)
    (parsed' : c'.Parsed) (hbound : c.BindsOnce) {settings : Settings}
    (hkept : c.KeepsDirectives c' settings) (artifact : Option Artifact) :
    Pass.generate c' settings = .ok artifact ↔ Pass.generate c settings = .ok artifact := by
  have hmarkers := h.markers parsed parsed' hbound hkept
  cases hfound : Directive.markers c (Pass.firstTable c settings) settings with
  | error error =>
      cases hfound' : Directive.markers c' (Pass.firstTable c' settings) settings with
      | error error' =>
          simp [Pass.generate_of_error hfound, Pass.generate_of_error hfound']
      | ok found' =>
          have hboth := (hmarkers found').mp hfound'
          rw [hfound] at hboth
          cases hboth
  | ok found =>
      have hfound' := (hmarkers found).mpr hfound
      have hlists : (Pass.reportOf c' settings ((Pass.firstTable c' settings).withExternal found)
          found).classification =
            (Pass.reportOf c settings ((Pass.firstTable c settings).withExternal found)
              found).classification := by
        refine Classification.ofDeclarations_alike ?_ found
        rw [Pass.firstTable, Pass.firstTable]
        have hsame := h.declarations parsed parsed' hbound
          ([settings.registration, settings.directive] ++ found) settings.registration
        rwa [← Corpus.withExternal_table, ← Corpus.withExternal_table] at hsame
      rw [Pass.generate_eq_of_markers hfound, Pass.generate_eq_of_markers hfound', hlists]

/-- The same text, or one whose items are rearranged. -/
def SourceTable.TextRearranged (text text' : String) : Prop :=
  text = text' ∨ ∃ items items', Grammar.parseFile text = .ok items ∧
    Grammar.parseFile text' = .ok items' ∧ Item.Rearranged items items'

/-- The same paths have texts, and each text is the same or has its items rearranged. -/
def SourceTable.Rearranged (sources sources' : List (FilePath × String)) : Prop :=
  ∀ path, Option.Rel TextRearranged (textOf? sources path) (textOf? sources' path)

/-- No text may be meant by two declarations of the files. -/
def DeclaresApart (text? : FilePath → Option String) (placed : List Placed) : Prop :=
  ∀ p ∈ placed, ∀ next, p.Declares next → ∀ q ∈ placed, ∀ other, q.Declares other →
    ∀ path, (text? path).isSome = true → path ∈ next.candidates.map (·.1) →
      path ∈ other.candidates.map (·.1) → next = other

/-- The file as its text is now. -/
def SourceFile.reread (text? : FilePath → Option String) (f : SourceFile) : SourceFile :=
  { f with items := ((text? f.path).bind fun text => (Grammar.parseFile text).toOption).getD [] }

def Placed.reread (text? : FilePath → Option String) (p : Placed) : Placed :=
  { p with file := p.file.reread text? }

namespace SourceTable.Rearranged

variable {sources sources' : List (FilePath × String)} {placed : List Placed} {root : FilePath}
  (h : SourceTable.Rearranged sources sources')
  (closure : IsModuleClosure (textOf? sources) Grammar.parseFile root placed)

include h

theorem isSome (path : FilePath) :
    (textOf? sources' path).isSome = (textOf? sources path).isSome := by
  have hpath := h path
  generalize textOf? sources path = text?, textOf? sources' path = text?' at hpath ⊢
  cases hpath with
  | none => rfl
  | some _ => rfl

theorem rootAmong_eq : rootAmong sources' = rootAmong sources := by
  rw [SourceTable.rootAmong_eq, SourceTable.rootAmong_eq, h.isSome]

theorem file?_eq (next : PendingModule) :
    next.file? (textOf? sources') = next.file? (textOf? sources) := by
  rw [PendingModule.file?, PendingModule.file?]
  simp only [h.isSome]

/-- A text that is read as items is now read as these items, rearranged. -/
theorem reread {f : SourceFile} {text : String} (htext : textOf? sources f.path = some text)
    (hparse : Grammar.parseFile text = .ok f.items) :
    (∃ text', textOf? sources' f.path = some text' ∧
      Grammar.parseFile text' = .ok (f.reread (textOf? sources')).items) ∧
    f.Rearranged (f.reread (textOf? sources')) := by
  have hpath := h f.path
  rw [htext] at hpath
  generalize htext' : textOf? sources' f.path = text?' at hpath
  cases hpath with
  | @some _ text' hsame =>
      obtain ⟨items', hparse', hitems⟩ : ∃ items', Grammar.parseFile text' = .ok items' ∧
          Item.Rearranged f.items items' := by
        rcases hsame with rfl | ⟨items, items', hfirst, hsecond, hitems⟩
        · exact ⟨f.items, hparse, .laid rfl⟩
        · obtain rfl := Except.ok.inj (hparse.symm.trans hfirst)
          exact ⟨items', hsecond, hitems⟩
      have hread : (f.reread (textOf? sources')).items = items' := by
        simp [SourceFile.reread, htext', hparse', Except.toOption]
      rw [hread]
      exact ⟨⟨text', rfl, hparse'⟩, rfl, rfl, rfl, hread ▸ hitems⟩

include closure

theorem rearranged_file {p : Placed} (hp : p ∈ placed) :
    p.file.Rearranged (p.file.reread (textOf? sources')) := by
  obtain ⟨text, htext, hparse⟩ := closure.read p hp
  exact (h.reread htext hparse).2

/-- Each file declares what it declared. -/
theorem declares {p : Placed} (hp : p ∈ placed) (next : PendingModule) :
    (p.reread (textOf? sources')).Declares next ↔ p.Declares next := by
  rw [← Placed.mem_declaredModules_iff, ← Placed.mem_declaredModules_iff]
  exact ((h.rearranged_file closure hp).items.declared _ next).symm

theorem isModuleClosure : IsModuleClosure (textOf? sources') Grammar.parseFile root
    (placed.map (Placed.reread (textOf? sources'))) := by
  have hreread :
      ∀ p ∈ placed, p.reread (textOf? sources') ∈ placed.map (Placed.reread (textOf? sources')) :=
    fun p hp => List.mem_map_of_mem hp
  constructor
  case distinct =>
      simpa [Placed.reread, SourceFile.reread, Function.comp_def] using closure.distinct
  case root =>
    obtain ⟨origin, horigin, hisRoot, hmodule, hpath, hdirectory, hunique⟩ := closure.root
    refine ⟨_, hreread origin horigin, hisRoot, hmodule, hpath, hdirectory, ?_⟩
    intro r hr hroot
    obtain ⟨q, hq, rfl⟩ := List.mem_map.mp hr
    rw [hunique q hq hroot]
  case read =>
    intro r hr
    obtain ⟨q, hq, rfl⟩ := List.mem_map.mp hr
    obtain ⟨text, htext, hparse⟩ := closure.read q hq
    exact (h.reread htext hparse).1
  case sound =>
    intro r hr
    obtain ⟨q, hq, rfl⟩ := List.mem_map.mp hr
    have hfrom := closure.sound q hq
    clear hr hq
    induction hfrom with
    | root member hroot hmodule => exact .root (hreread _ member) hroot hmodule
    | @declared q p next hfrom hdeclares hfile hmodule hinner member ih =>
        exact .declared ih ((h.declares closure hfrom.mem next).mpr hdeclares)
          ((h.file?_eq next).trans hfile) hmodule hinner (hreread _ member)
  case complete =>
    intro r hr next hdeclares candidate hcandidate
    obtain ⟨q, hq, rfl⟩ := List.mem_map.mp hr
    rw [h.file?_eq] at hcandidate
    obtain ⟨found, hfound, hpath⟩ :=
      closure.complete q hq next ((h.declares closure hq next).mp hdeclares) candidate hcandidate
    exact ⟨_, hreread found hfound, hpath⟩

/-- All declarations that may mean a file say the same of it, as only one may. -/
theorem coherent (hapart : DeclaresApart (textOf? sources) placed) :
    Coherent (textOf? sources') (placed.map (Placed.reread (textOf? sources'))) := by
  intro r hr next hdeclares candidate hcandidate s hs hpath
  obtain ⟨p, hp, rfl⟩ := List.mem_map.mp hr
  obtain ⟨q, hq, rfl⟩ := List.mem_map.mp hs
  rw [h.declares closure hp] at hdeclares
  rw [h.file?_eq] at hcandidate
  have hmember : candidate ∈ next.candidates := List.mem_of_find?_eq_some hcandidate
  have hpresent : (textOf? sources candidate.1).isSome = true := by
    simpa using List.find?_some hcandidate
  cases closure.sound q hq with
  | root _ hroot _ => exact Or.inl hroot
  | @declared origin _ other hfrom hother hfile hmodule _ _ =>
      -- the declaration that the file was taken up for is the one at hand
      have hfound : (q.file.path, q.directory) ∈ other.candidates := List.mem_of_find?_eq_some hfile
      have hpath : q.file.path = candidate.1 := hpath
      obtain rfl : next = other :=
        hapart p hp next hdeclares origin hfrom.mem other hother candidate.1
        hpresent (List.mem_map_of_mem hmember) (List.mem_map.mpr ⟨_, hfound, hpath⟩)
      rw [hcandidate] at hfile
      exact Or.inr ⟨hmodule, (congrArg Prod.snd (Option.some.inj hfile)).symm⟩

omit closure

/-- The rearranged sources are loaded, each file for the module it was loaded for. -/
theorem ofSources {c : Corpus} (hloads : Loads sources placed)
    (hcorpus : Corpus.ofSources sources = .ok c)
    (hapart : DeclaresApart (textOf? sources) placed) :
    ∃ c', Corpus.ofSources sources' = .ok c' ∧ c.Rearranged c' := by
  have closure := Corpus.isModuleClosure_of_loads hloads
  let reread := SourceFile.reread (textOf? sources')
  have closure' : IsModuleClosure (textOf? sources') Grammar.parseFile (rootAmong sources')
      (placed.map (Placed.reread (textOf? sources'))) := by
    rw [h.rootAmong_eq]
    exact h.isModuleClosure closure
  obtain ⟨⟨files⟩, hcorpus', hloaded⟩ :=
    Corpus.ofSources_of_closure closure' (h.coherent closure hapart)
  have hfiles := Corpus.files_perm_of_loads hloads hcorpus
  have hsame : files.Perm (c.files.map reread) :=
    calc
      files.Perm ((placed.map (Placed.reread (textOf? sources'))).map (·.file)) := hloaded
      _ = (placed.map (·.file)).map reread := by simp [Placed.reread, reread, Function.comp_def]
      List.Perm _ (c.files.map reread) := hfiles.symm.map _
  have hordered : (c.files.map reread).Pairwise fun f g => f.path.compare g.path = .lt :=
    List.pairwise_map.mpr (Corpus.pairwise_ofSources hcorpus)
  -- both lists are in strict order of their paths, so the order of loading leaves no trace
  have hequal : files = c.files.map reread :=
    hsame.eq_of_pairwise (fun f g _ _ hfg hgf => absurd hgf (FilePath.not_compare_eq_lt hfg))
      (Corpus.pairwise_ofSources hcorpus') hordered
  refine ⟨⟨files⟩, hcorpus', ?_⟩
  rw [Corpus.Rearranged, hequal, List.forall₂_map_right_iff, List.forall₂_same]
  intro f hf
  obtain ⟨p, hp, rfl⟩ := List.mem_map.mp (hfiles.mem_iff.mp hf)
  exact h.rearranged_file closure hp

end SourceTable.Rearranged

namespace Pass

/-- Items may stand in any order in which functions, glob imports and directives keep theirs, where
no source may be meant by two declarations and no module binds one name by two imports. Then every
path means the same in every module, and the same text is generated. Other crates may be imported
under an underscore any number of times, since no path that is written has an underscore in it. -/
theorem generate_rearranged {sources sources' : List (FilePath × String)} {placed : List Placed}
    {c : Corpus} (hloads : SourceTable.Loads sources placed)
    (hcorpus : Corpus.ofSources sources = .ok c)
    (hbound : c.BindsOnce) (hapart : DeclaresApart (textOf? sources) placed)
    (h : SourceTable.Rearranged sources sources') :
    ∃ c', Corpus.ofSources sources' = .ok c' ∧
      (∀ external m segments leadingColon, "_" ∉ segments →
        (c'.table external).resolve m segments leadingColon =
          (c.table external).resolve m segments leadingColon) ∧
      ∀ settings, c.KeepsDirectives c' settings → ∀ artifact,
        generate c' settings = .ok artifact ↔ generate c settings = .ok artifact := by
  obtain ⟨c', hcorpus', hrearranged⟩ := h.ofSources hloads hcorpus hapart
  have parsed := Corpus.parsed_of_ofSources hcorpus
  have parsed' := Corpus.parsed_of_ofSources hcorpus'
  refine ⟨c', hcorpus', ?_, ?_⟩
  · intro external m segments leadingColon hsegments
    exact hrearranged.resolve parsed hbound external m hsegments leadingColon
  · intro settings hkept artifact
    exact hrearranged.generate parsed parsed' hbound hkept artifact

/-- An import and a directive before what they name. -/
def usedFirstText : String :=
  "generate_functions_with!(K); use m::K; mod m \x7b struct L; struct K; \x7d " ++
    "#[K] #[functions_worker::function(\"F\")] fn f() \x7b\x7d"

def usedLastText : String :=
  "mod m \x7b struct K; struct L; \x7d " ++
    "#[K] #[functions_worker::function(\"F\")] fn f() \x7b\x7d generate_functions_with!(K); use m::K;"

def usesOf (place : Position) : List Item :=
  [.invocation ⟨false, ["generate_functions_with"], 1⟩ [.leaf place (.word "K")],
    .use false (.path "m" (.name "K"))]

def functionsOf (declared : List Item) (place : Position) : List Item :=
  [.submodule "m" [] (some declared),
    .function ⟨[⟨false, ⟨false, ["K"], 1⟩, .none⟩,
      ⟨false, ⟨false, ["functions_worker", "function"], 1⟩,
        .tokens [.leaf place (.literal "\"F\"")]⟩], "f", 1⟩]

def usedFirstItems : List Item :=
  usesOf ⟨1, 26⟩ ++ functionsOf [.declaration "L", .declaration "K"] ⟨1, 104⟩

def usedLastItems : List Item :=
  functionsOf [.declaration "K", .declaration "L"] ⟨1, 65⟩ ++ usesOf ⟨1, 106⟩

theorem parse_usedFirstText : Grammar.parseFile usedFirstText = .ok usedFirstItems :=
  Item.parse_of_sameAll (by decide +kernel)

theorem parse_usedLastText : Grammar.parseFile usedLastText = .ok usedLastItems :=
  Item.parse_of_sameAll (by decide +kernel)

theorem rearranged_usedFirstItems : Item.Rearranged usedFirstItems usedLastItems := by
  let inner := functionsOf [.declaration "K", .declaration "L"] ⟨1, 104⟩
  have hinside : Item.Rearranged usedFirstItems (usesOf ⟨1, 26⟩ ++ inner) :=
    .inside (.arranged (.swap _ _ _) ⟨rfl, rfl⟩)
  have houtside : Item.Rearranged (usesOf ⟨1, 26⟩ ++ inner) (inner ++ usesOf ⟨1, 26⟩) :=
    .arranged List.perm_append_comm ⟨rfl, rfl⟩
  exact (hinside.trans houtside).trans (.laid rfl)

theorem rearranged_usedFirst : SourceTable.Rearranged [(⟨"lib.rs"⟩, usedFirstText)]
    [(⟨"lib.rs"⟩, usedLastText)] := by
  intro path
  rw [SourceTable.textOf?_library, SourceTable.textOf?_library]
  split
  · exact .some (.inr ⟨_, _, parse_usedFirstText, parse_usedLastText, rearranged_usedFirstItems⟩)
  · exact .none

/-- With the directive and the import moved behind what they name, the same text is generated. -/
theorem generate_usedLast : ∃ (c c' : Corpus) (artifact : Artifact),
    Corpus.ofSources [(⟨"lib.rs"⟩, usedFirstText)] = .ok c ∧
    Corpus.ofSources [(⟨"lib.rs"⟩, usedLastText)] = .ok c' ∧ c.BindsOnce ∧
    c.KeepsDirectives c' .standard ∧
    (∀ external m segments leadingColon, "_" ∉ segments →
      (c'.table external).resolve m segments leadingColon =
        (c.table external).resolve m segments leadingColon) ∧
    generate c .standard = .ok (some artifact) ∧ generate c' .standard = .ok (some artifact) := by
  let c : Corpus := ⟨[(Placed.ofRoot ⟨"lib.rs"⟩ usedFirstItems).file]⟩
  let last : Corpus := ⟨[(Placed.ofRoot ⟨"lib.rs"⟩ usedLastItems).file]⟩
  have hcorpus : Corpus.ofSources [(⟨"lib.rs"⟩, usedFirstText)] = .ok c :=
    Corpus.ofSources_library parse_usedFirstText rfl
  have hlast : Corpus.ofSources [(⟨"lib.rs"⟩, usedLastText)] = .ok last :=
    Corpus.ofSources_library parse_usedLastText rfl
  have hbound : c.BindsOnce := by decide +kernel
  have hapart : DeclaresApart (textOf? [(⟨"lib.rs"⟩, usedFirstText)])
      [.ofRoot ⟨"lib.rs"⟩ usedFirstItems] := by
    intro p hp next hdeclares
    obtain rfl := List.mem_singleton.mp hp
    have hnone : (Placed.ofRoot ⟨"lib.rs"⟩ usedFirstItems).file.declaredModules
        (Placed.ofRoot ⟨"lib.rs"⟩ usedFirstItems).directory = [] := rfl
    have member := Placed.mem_declaredModules_iff.mpr hdeclares
    rw [hnone] at member
    cases member
  have hkept : c.KeepsDirectives last .standard := by
    intro root root' hroot hroot'
    obtain rfl := Option.some.inj hroot
    obtain rfl := Option.some.inj hroot'
    exact Item.eq_of_sameAll _ _ (by decide +kernel)
  have hcheck : (generate c .standard).toOption.any (·.isSome) = true := by
    decide +kernel
  obtain ⟨artifact?, hgenerate, hsome⟩ := exists_ok_of_any hcheck
  obtain ⟨artifact, rfl⟩ := Option.isSome_iff_exists.mp hsome
  obtain ⟨c', hcorpus', hresolve, hsame⟩ := generate_rearranged
    (SourceTable.loads_library parse_usedFirstText rfl) hcorpus hbound hapart rearranged_usedFirst
  obtain rfl : last = c' := Except.ok.inj (hlast.symm.trans hcorpus')
  exact ⟨c, last, artifact, hcorpus, hlast, hbound, hkept, hresolve, hgenerate,
    (hsame .standard hkept (some artifact)).mpr hgenerate⟩

end Pass

end MarkerIndex
