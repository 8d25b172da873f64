import MarkerIndex.Proofs.Discovery
import MarkerIndex.Proofs.KnownItems
import MarkerIndex.Proofs.ModuleFiles
import MarkerIndex.Proofs.QualifiedName
/-!
The names of modules that lie in files of their own. The loader names a file for the modules around
its declaration, each without the mark of raw names, and the symbol table has the declaration under
the names as they are written. A path that goes by the declaration leads into the file where the two
are the same.
-/

namespace MarkerIndex

/-- The name that an item declares in the module that it stands in. An underscore is no name. -/
def Item.declaredName? (i : Item) : Option String :=
  let name := match i with
    | .submodule name _ _ => some name
    | .function f => some f.name
    | .contract name _ => some name
    | .declaration name => some name
    | _ => none
  name.filter (· ≠ "_")

namespace PendingModule

/-- Items that declare a module without a body, inside of modules that are written in place. The
names are those that are written. -/
inductive DeclaresAt : Site → List Item → List String → String → PendingModule → Prop
  | here {site : Site} {items : List Item} {name : String} {attributes : List Attribute} :
      .submodule name attributes none ∈ items →
      DeclaresAt site items [] name
        ⟨site.module.join (Text.unraw name),
          candidatesOf site (Text.unraw name) (attributes.findSome? Attribute.pathValue?)⟩
  | inside {site : Site} {items nested : List Item} {around : String} {attributes : List Attribute}
      {names : List String} {name : String} {next : PendingModule} :
      .submodule around attributes (some nested) ∈ items →
      DeclaresAt (site.inside around attributes) nested names name next →
      DeclaresAt site items (around :: names) name next

variable {site : Site} {items : List Item} {names : List String} {name : String}
  {next : PendingModule}

theorem Declares.exists_names (h : Declares site items next) :
    ∃ names name, DeclaresAt site items names name next := by
  induction h with
  | here member => exact ⟨[], _, .here member⟩
  | inside member _ ih =>
      obtain ⟨names, name, hnested⟩ := ih
      exact ⟨_ :: names, name, .inside member hnested⟩

/-- The loader's name for a declared module. -/
theorem DeclaresAt.module_eq (h : DeclaresAt site items names name next) :
    next.module = site.module.extend ((names ++ [name]).map Text.unraw) := by
  induction h with
  | here _ => simp
  | inside _ _ ih => simpa [Site.inside] using ih

/-- The table's name for it. -/
theorem DeclaresAt.stated (h : DeclaresAt site items names name next) (m : ItemPath) :
    Fact.Stated m items (m.extend names, .item name) := by
  induction h generalizing m with
  | here member =>
      rw [ItemPath.extend_nil]
      exact .own member List.mem_cons_self
  | inside member _ ih =>
      rw [ItemPath.extend_cons]
      exact .inside member (ih _)

end PendingModule

theorem Fact.mem_own_of_declaredName? {i : Item} {name : String} (h : i.declaredName? = some name) :
    .item name ∈ Fact.own i := by
  obtain ⟨hdeclared, hname⟩ := Option.filter_eq_some_iff.mp h
  have hname : name ≠ "_" := by simpa using hname
  cases i with
  | submodule other attributes content =>
      obtain rfl := Option.some.inj hdeclared
      exact List.mem_cons_self
  | function f =>
      obtain rfl := Option.some.inj hdeclared
      simp [own, ofName, hname]
  | contract other _ | declaration other =>
      obtain rfl := Option.some.inj hdeclared
      simp [own, ofName, hname]
  | _ => cases hdeclared

/-- A file declares a module, and another one is loaded for it. -/
def Placed.LoadsAt (text? : FilePath → Option String) (p : Placed) (names : List String)
    (name : String)
    (q : Placed) : Prop :=
  ∃ next, PendingModule.DeclaresAt p.site p.file.items names name next ∧
    next.file? text? = some (q.file.path, q.directory) ∧ q.file.module = next.module

/-- Every file of a crate but the root is loaded by a declaration. -/
theorem IsModuleClosure.exists_loadsAt {text? : FilePath → Option String}
    {parse : String → Except Grammar.Failure (List Item)} {root : FilePath} {placed : List Placed}
    (closure : IsModuleClosure text? parse root placed) {q : Placed} (hq : q ∈ placed)
    (hroot : q.file.isRoot = false) : ∃ p ∈ placed, ∃ names name, p.LoadsAt text? names name q := by
  cases closure.sound q hq with
  | root _ hisRoot _ => simp [hroot] at hisRoot
  | declared hfrom hdeclares hfile hmodule _ _ =>
      obtain ⟨names, name, hat⟩ := hdeclares.exists_names
      exact ⟨_, hfrom.mem, names, name, _, hat, hfile, hmodule⟩

namespace Placed.LoadsAt

variable {text? : FilePath → Option String} {p q : Placed} {names : List String} {name : String}

theorem module_eq (h : p.LoadsAt text? names name q) :
    q.file.module = (p.file.module.extend (names.map Text.unraw)).join (Text.unraw name) := by
  obtain ⟨next, hat, -, hmodule⟩ := h
  rw [hmodule, hat.module_eq, List.map_append, List.map_singleton, ItemPath.extend_concat]
  rfl

/-- The loader and the table agree on the module of the file just where none of its names is raw. -/
theorem module_eq_iff (h : p.LoadsAt text? names name q) :
    (p.file.module.extend names).join name = q.file.module ↔
      ∀ word ∈ name :: names, Text.unraw word = word := by
  have hnames : names.map Text.unraw = names ↔ ∀ word ∈ names, Text.unraw word = word := by
    simpa using List.map_inj_left (l := names) (f := Text.unraw) (g := id)
  rw [h.module_eq, List.forall_mem_cons, ← hnames]
  constructor
  · intro hsame
    obtain ⟨habove, hname⟩ := ItemPath.join_inj hsame
    refine ⟨hname.symm, ?_⟩
    simpa [ItemPath.extend] using habove.symm
  · rintro ⟨hname, hplain⟩
    rw [hname, hplain]

end Placed.LoadsAt

namespace SymbolTable

/-- A module does not declare a name, and has it by an import of a given item. -/
def PassesOn (t : SymbolTable) (m : ItemPath) (name : String) (p : ItemPath) : Prop :=
  t.isModule m = true ∧ t.declares m name = false ∧ t.resolve m ["self", name] false = ⟨p, .local⟩

/-- Elsewhere than in the module of an item, it is had by an import only. -/
theorem resolve_self_eq_iff {t : SymbolTable} {m other : ItemPath} {name : String} (h : m ≠ other) :
    t.resolve m ["self", name] false = ⟨other.join name, .local⟩ ↔
    t.PassesOn m name (other.join name) := by
  constructor
  · intro hresolve
    by_contra hpasses
    have hown : t.resolve m ["self", name] false = ⟨m.join name, .local⟩ := by
      rw [resolve_self]
      cases hmodule : t.isModule m with
      | false => simp [Level.descendFrom_outside hmodule]
      | true =>
          cases hdeclared : t.declares m name with
          | false => exact absurd ⟨hmodule, hdeclared, hresolve⟩ hpasses
          | true => rw [Level.descendFrom_declared hmodule hdeclared, Level.descendFrom_nil]
    rw [hown] at hresolve
    exact h (ItemPath.join_inj (congrArg Resolution.path hresolve)).1
  · exact fun hpasses => hpasses.2.2

variable {c : Corpus} {f : SourceFile} {m : ItemPath} {name : String}

theorem hasItem_of_file (external : List ItemPath) (hf : f ∈ c.files)
    (h : Fact.Stated f.module f.items (m, .item name)) : (c.table external).hasItem m name = true :=
  List.contains_iff_mem.mpr
    (List.mem_flatMap.mpr ⟨f, hf, List.mem_cons_of_mem _ (Fact.mem_ofItems_iff.mpr h)⟩)

theorem resolve_self_item {t : SymbolTable} (h : t.hasItem m name = true) (rest : List String) :
    t.resolve m ("self" :: name :: rest) false = t.inner.descendFrom t (m.join name) rest :=
  resolve_self_declared (isModule_of_hasItem h) (declares_iff.mpr (Or.inl h)) rest

/-- The table has every item of a file, and finds it from the module of the file. From the module
that the file is declared in, the name of the declaration leads to the item just where none of the
names around it is raw, its own included. Otherwise it leads to another module, which there may be
in place, and the item may be imported there. -/
theorem resolve_through_declaration {text? : FilePath → Option String} {p q : Placed}
    {names : List String}
    {word : String} (external : List ItemPath) (hp : p.file ∈ c.files) (hq : q.file ∈ c.files)
    (hloads : p.LoadsAt text? names name q)
    (hdeclared : ∃ i ∈ q.file.items, i.declaredName? = some word) :
    (c.table external).contains (q.file.module.join word) = true ∧
    (c.table external).resolve q.file.module ["self", word] false =
      ⟨q.file.module.join word, .local⟩ ∧
    ((c.table external).resolve (p.file.module.extend names) ["self", name, word] false =
        (c.table external).resolve q.file.module ["self", word] false ↔
      (∀ part ∈ name :: names, Text.unraw part = part) ∨
        (c.table external).PassesOn ((p.file.module.extend names).join name) word
          (q.file.module.join word)) := by
  obtain ⟨i, hi, hword⟩ := hdeclared
  have hitem : (c.table external).hasItem q.file.module word = true :=
    hasItem_of_file external hq (.own hi (Fact.mem_own_of_declaredName? hword))
  have hinFile : (c.table external).resolve q.file.module ["self", word] false =
      ⟨q.file.module.join word, .local⟩ := by
    rw [resolve_self_item hitem, Level.descendFrom_nil]
  have hdeclaration : (c.table external).hasItem (p.file.module.extend names) name = true := by
    obtain ⟨next, hat, -⟩ := hloads
    exact hasItem_of_file external hp (hat.stated _)
  have hleads : (c.table external).resolve (p.file.module.extend names) ["self", name, word] false =
      (c.table external).resolve ((p.file.module.extend names).join name) ["self", word] false := by
    rw [resolve_self_item hdeclaration, resolve_self]
  refine ⟨?_, hinFile, ?_⟩
  · have hne : q.file.module.segments ≠ [] := by simp [hloads.module_eq]
    rw [contains_join hne]
    exact declares_iff.mpr (Or.inl hitem)
  · rw [hleads, hinFile, ← hloads.module_eq_iff]
    by_cases hsame : (p.file.module.extend names).join name = q.file.module
    · simp [hsame, hinFile]
    · simp [hsame, resolve_self_eq_iff hsame]

/-- A module in a file, declared inside of a module that is written in place. -/
def plainlyDeclared : List (FilePath × String) :=
  [(⟨"lib.rs"⟩, "mod p { mod q; }"), (⟨"p/q.rs"⟩, "struct r#fn;")]

/-- The name of the item itself may be raw. -/
theorem resolve_through_plainlyDeclared : ∃ c, Corpus.ofSources plainlyDeclared = .ok c ∧
    (c.table []).contains ⟨["crate", "p", "q", "r#fn"]⟩ = true ∧
    (c.table []).resolve ⟨["crate", "p"]⟩ ["self", "q", "r#fn"] false =
      ⟨⟨["crate", "p", "q", "r#fn"]⟩, .local⟩ := by
  let items : List Item := [.submodule "p" [] (some [.submodule "q" [] none])]
  let next : PendingModule := ⟨⟨["crate", "p", "q"]⟩,
    [(⟨"p/q.rs"⟩, ⟨"p/q"⟩), (⟨"p/q/mod.rs"⟩, ⟨"p/q"⟩)]⟩
  let p : Placed := .ofRoot ⟨"lib.rs"⟩ items
  let q : Placed := ⟨⟨⟨"p/q.rs"⟩, next.module, [.declaration "r#fn"], false⟩, ⟨"p/q"⟩⟩
  have hitems : Grammar.parseFile "mod p { mod q; }" = .ok items :=
    Item.parse_of_sameAll (by decide +kernel)
  have hinner : Grammar.parseFile "struct r#fn;" = .ok [.declaration "r#fn"] :=
    Item.parse_of_sameAll (by decide +kernel)
  have hcorpus : Corpus.ofSources plainlyDeclared = .ok ⟨[p.file, q.file]⟩ :=
    Corpus.ofSources_pair next ⟨⟨"p/q.rs"⟩, ⟨"p/q"⟩, "struct r#fn;"⟩ (by decide +kernel)
      (by decide +kernel) hitems hinner (by decide +kernel) (by decide +kernel) rfl
        (by decide +kernel)
  have hnext : PendingModule.mk ((p.site.inside "p" []).module.join (Text.unraw "q"))
      (PendingModule.candidatesOf (p.site.inside "p" []) (Text.unraw "q") none) = next := by
    decide +kernel
  have hloads : p.LoadsAt (textOf? plainlyDeclared) ["p"] "q" q :=
    ⟨next, .inside List.mem_cons_self (hnext ▸ .here List.mem_cons_self), by decide +kernel, rfl⟩
  have hdeclared : ∃ i ∈ q.file.items, i.declaredName? = some "r#fn" :=
    ⟨_, List.mem_cons_self, by decide⟩
  obtain ⟨hcontains, hinFile, hagree⟩ := resolve_through_declaration (c := ⟨[p.file, q.file]⟩) []
    List.mem_cons_self (by simp) hloads hdeclared
  exact ⟨_, hcorpus, hcontains, (hagree.mpr (Or.inl (by decide +kernel))).trans hinFile⟩

/-- A module in a file, declared by a raw name. -/
def rawlyDeclared : List (FilePath × String) :=
  [(⟨"lib.rs"⟩, "mod r#type;"), (⟨"type.rs"⟩, "struct X;")]

theorem resolve_past_rawlyDeclared : ∃ (c : Corpus) (p q : Placed),
    Corpus.ofSources rawlyDeclared = .ok c ∧ p.file ∈ c.files ∧ q.file ∈ c.files ∧
    p.LoadsAt (textOf? rawlyDeclared) [] "r#type" q ∧
    (∃ i ∈ q.file.items, i.declaredName? = some "X") ∧
    (c.table []).resolve q.file.module ["self", "X"] false = ⟨⟨["crate", "type", "X"]⟩, .local⟩ ∧
    (c.table []).resolve p.file.module ["self", "r#type", "X"] false =
      ⟨⟨["crate", "r#type", "X"]⟩, .local⟩ ∧
    (c.table []).contains ⟨["crate", "r#type", "X"]⟩ = false := by
  let items : List Item := [.submodule "r#type" [] none]
  let next : PendingModule := ⟨⟨["crate", "type"]⟩,
    [(⟨"type.rs"⟩, ⟨"type"⟩), (⟨"type/mod.rs"⟩, ⟨"type"⟩)]⟩
  let p : Placed := .ofRoot ⟨"lib.rs"⟩ items
  let q : Placed := ⟨⟨⟨"type.rs"⟩, next.module, [.declaration "X"], false⟩, ⟨"type"⟩⟩
  have hitems : Grammar.parseFile "mod r#type;" = .ok items :=
    Item.parse_of_sameAll (by decide +kernel)
  have hinner : Grammar.parseFile "struct X;" = .ok [.declaration "X"] :=
    Item.parse_of_sameAll (by decide +kernel)
  have hcorpus : Corpus.ofSources rawlyDeclared = .ok ⟨[p.file, q.file]⟩ :=
    Corpus.ofSources_pair next ⟨⟨"type.rs"⟩, ⟨"type"⟩, "struct X;"⟩ (by decide +kernel)
      (by decide +kernel) hitems hinner (by decide +kernel) (by decide +kernel) rfl
        (by decide +kernel)
  have hnext : PendingModule.mk (p.site.module.join (Text.unraw "r#type"))
      (PendingModule.candidatesOf p.site (Text.unraw "r#type") none) = next := by
    decide +kernel
  have hloads : p.LoadsAt (textOf? rawlyDeclared) [] "r#type" q :=
    ⟨next, hnext ▸ .here List.mem_cons_self, by decide +kernel, rfl⟩
  exact ⟨_, p, q, hcorpus, List.mem_cons_self, by simp, hloads, ⟨_, List.mem_cons_self, by decide⟩,
    by decide +kernel⟩

end SymbolTable

end MarkerIndex
