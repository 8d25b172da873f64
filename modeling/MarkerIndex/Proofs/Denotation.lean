import MarkerIndex.Proofs.Lookup
import MarkerIndex.Proofs.ModuleTree
/-!
What a path may denote, said as a relation without levels and without an order among the sources of
a name. The main statement is soundness: where looking up leads to a declared item of the crate, the
path may denote it. Circles of imports and the last level do not matter, since a path that is left
as it stands names a declared item only if its steps are declared one by one.
-/

namespace MarkerIndex

namespace SymbolTable

/-- The words in front of a path lead from `m` to a module. The parent of the root is the root. -/
inductive Leads (m : ItemPath) : List String → ItemPath → Prop
  | crate : Leads m ["crate"] .crateRoot
  | self : Leads m ["self"] m
  | super : Leads m ["super"] (m.parent?.getD .crateRoot)
  | higher {words : List String} {base : ItemPath} :
      Leads m words base → Leads m (words ++ ["super"]) (base.parent?.getD .crateRoot)

mutual

/-- The path of an import, or of a use of a name, may denote `p` when it stands in `m`. -/
inductive MayDenote (t : SymbolTable) : ItemPath → ImportTarget → ItemPath → Prop
  /-- An import of `self` alone is kept as the empty path. -/
  | here {m : ItemPath} {leadingColon : Bool} : MayDenote t m ⟨[], leadingColon⟩ m
  | led {m base p : ItemPath} {words rest : List String} :
      Leads m words base → WalkMayReach t base rest p → MayDenote t m ⟨words ++ rest, false⟩ p
  | named {m q p : ItemPath} {name : String} {rest : List String} :
      name ∉ ItemPath.pathWords → NameMayDenote t m name q → WalkMayReach t q rest p →
      MayDenote t m ⟨name :: rest, false⟩ p

/-- Names in a row may lead from `m` to `p`, each looked up in what the one before denotes. -/
inductive WalkMayReach (t : SymbolTable) : ItemPath → List String → ItemPath → Prop
  | done {m : ItemPath} : WalkMayReach t m [] m
  | step {m q p : ItemPath} {name : String} {rest : List String} :
      NameMayDenote t m name q → WalkMayReach t q rest p → WalkMayReach t m (name :: rest) p

/-- A name may denote `p` inside `m`: as a declaration, by any import that binds it, or because a
module of this crate is imported as a whole in which it may denote `p`. -/
inductive NameMayDenote (t : SymbolTable) : ItemPath → String → ItemPath → Prop
  | declared {m : ItemPath} {name : String} :
      t.declares m name = true → NameMayDenote t m name (m.join name)
  | imported {m p : ItemPath} {name : String} {target : ImportTarget} :
      (m, .binding name target) ∈ t.facts → MayDenote t m target p → NameMayDenote t m name p
  | glob {m base p : ItemPath} {name : String} {target : ImportTarget} :
      (m, .glob target) ∈ t.facts → MayDenote t m target base → t.isModule base = true →
      NameMayDenote t base name p → NameMayDenote t m name p

end

variable {t : SymbolTable}

/-- A contained path is reached by its declarations. This is what makes it safe to leave a path as
it stands. -/
theorem IsTree.walkMayReach_extend (tree : t.IsTree) {base : ItemPath} (hbase : base.segments ≠ [])
    (names : List String) (h : t.contains (base.extend names) = true) :
    t.WalkMayReach base names (base.extend names) := by
  induction names generalizing base with
  | nil =>
      rw [ItemPath.extend_nil]
      exact .done
  | cons name names ih =>
      have hdeclared := tree.declares_of_contains hbase h
      rw [ItemPath.extend_cons] at h ⊢
      exact .step (.declared hdeclared) (ih (by simp) h)

/-- A resolution into the crate goes to a path with a name in it, and where that path is contained
it is one of those that `Denotes` holds of. -/
def Justified (t : SymbolTable) (Denotes : ItemPath → Prop) (found : Resolution) : Prop :=
  found.origin = .local →
    found.path.segments ≠ [] ∧ (t.contains found.path = true → Denotes found.path)

theorem Justified.imp {D E : ItemPath → Prop} {found : Resolution} (h : t.Justified D found)
    (himp : ∀ p, D p → E p) : t.Justified E found := by
  intro horigin
  obtain ⟨hpath, hdenotes⟩ := h horigin
  exact ⟨hpath, fun hcontains => himp _ (hdenotes hcontains)⟩

/-- Leaving a path as it stands is justified. -/
theorem IsTree.justified_extend (tree : t.IsTree) {base : ItemPath} (hbase : base.segments ≠ [])
    (names : List String) :
    t.Justified (t.WalkMayReach base names) ⟨base.extend names, .local⟩ := by
  intro _
  exact ⟨ItemPath.segments_extend_ne_nil hbase names, tree.walkMayReach_extend hbase names⟩

end SymbolTable

namespace Level

open SymbolTable

/-- What is kept from level to level: both ways of looking up are justified, and below what is no
module nothing is followed. -/
structure Sound (t : SymbolTable) (l : Level) : Prop where
  resolve : ∀ q, q.module.segments ≠ [] →
    t.Justified (t.MayDenote q.module q.target) (l.resolve q)
  descend : ∀ base names, base.segments ≠ [] →
    t.Justified (t.WalkMayReach base names) (l.descend base names)
  outside : ∀ base names, t.isModule base = false →
    l.descend base names = ⟨base.extend names, .local⟩

variable {t : SymbolTable} {lower : Level}

theorem sound_last (tree : t.IsTree) : last.Sound t where
  resolve := by
    rintro ⟨m, ⟨segments, leadingColon⟩, skip, throughGlobs⟩ hm horigin
    by_cases hempty : segments = []
    · subst hempty
      exact ⟨hm, fun _ => .here⟩
    · cases leadingColon <;> simp [last, hempty] at horigin
  descend base names hbase := tree.justified_extend hbase names
  outside _ _ _ := rfl

namespace Sound

/-- Going on from what was found. A walk with steps to go ends at a contained path only if it starts
at a module, so that what was found is contained too. -/
theorem append (tree : t.IsTree) (sound : lower.Sound t) {D : ItemPath → Prop}
    {found : Resolution} (hfound : t.Justified D found) (rest : List String) :
    t.Justified (fun p => ∃ q, D q ∧ t.WalkMayReach q rest p) (lower.append found rest) := by
  intro horigin
  by_cases hrest : rest = []
  · subst hrest
    rw [append_nil] at horigin ⊢
    obtain ⟨hpath, hdenotes⟩ := hfound horigin
    exact ⟨hpath, fun hcontains => ⟨found.path, hdenotes hcontains, .done⟩⟩
  · obtain ⟨hlocal, heq⟩ := append_of_ne_nil hrest horigin
    obtain ⟨hpath, hdenotes⟩ := hfound hlocal
    rw [heq] at horigin ⊢
    obtain ⟨hnext, hwalk⟩ := sound.descend found.path rest hpath horigin
    -- From what is no module the walk leaves the path as it stands, which is then not contained.
    have hmodule (hcontains : t.contains (lower.descend found.path rest).path = true) :
        t.isModule found.path = true := by
      by_contra hno
      obtain ⟨name, names, rfl⟩ := List.exists_cons_of_ne_nil hrest
      rw [sound.outside _ _ (by simpa using hno)] at hcontains
      exact hno (tree.isModule_of_declares hpath (tree.declares_of_contains hpath hcontains))
    exact ⟨hnext, fun hcontains => ⟨found.path,
      hdenotes (contains_of_isModule (hmodule hcontains)), hwalk hcontains⟩⟩

theorem followImport (sound : lower.Sound t) {m : ItemPath} (hm : m.segments ≠ [])
    (name : String) (target : ImportTarget) :
    t.Justified (t.MayDenote m target) (lower.followImport m name target) := by
  intro horigin
  have heq := followImport_of_local horigin
  rw [heq] at horigin ⊢
  exact sound.resolve ⟨m, target, some name, true⟩ hm horigin

/-- An import that binds a name, and the path behind the name. -/
theorem imported (tree : t.IsTree) (sound : lower.Sound t) {m : ItemPath} (hm : m.segments ≠ [])
    {name : String} {target : ImportTarget} (himport : t.import? m name = some target)
    (rest : List String) :
    t.Justified (fun p => ∃ q, t.NameMayDenote m name q ∧ t.WalkMayReach q rest p)
      (lower.append (lower.followImport m name target) rest) := by
  apply (append tree sound (followImport sound hm name target) rest).imp
  rintro p ⟨q, hdenotes, hwalk⟩
  exact ⟨q, .imported (mem_facts_of_import? himport) hdenotes, hwalk⟩

/-- The module that a name comes from by a glob import. It is known to be a module because something
is declared or bound in it. -/
theorem globSource (tree : t.IsTree) (sound : lower.Sound t) {m base : ItemPath}
    (hm : m.segments ≠ []) {name : String} (h : lower.globSource? t m name = some base) :
    base.segments ≠ [] ∧
      ∀ q, t.NameMayDenote base name q → t.NameMayDenote m name q := by
  obtain ⟨target, member, hbase, hvisible⟩ := globSource?_eq_some h
  have hfound := sound.resolve ⟨m, target, none, false⟩ hm
  rw [show lower.resolve ⟨m, target, none, false⟩ = ⟨base, .local⟩ from hbase] at hfound
  obtain ⟨hne, hdenotes⟩ := hfound rfl
  have hmodule : t.isModule base = true := by
    rcases hvisible with hdeclared | hbound
    · exact tree.isModule_of_declares hne hdeclared
    · obtain ⟨_, himport⟩ := Option.isSome_iff_exists.mp hbound
      exact isModule_of_import? himport
  exact ⟨hne, fun q hq =>
    .glob (mem_globs.mp member) (hdenotes (contains_of_isModule hmodule)) hmodule hq⟩

theorem descendFrom (tree : t.IsTree) (sound : lower.Sound t) (names : List String)
    {base : ItemPath} (hbase : base.segments ≠ []) :
    t.Justified (t.WalkMayReach base names) (lower.descendFrom t base names) := by
  fun_induction Level.descendFrom t lower base names with
  | case1 base => simpa using tree.justified_extend hbase []
  | case2 base name names hmodule => exact tree.justified_extend hbase (name :: names)
  | case3 base name names hmodule hdeclared ih =>
      exact (ih (by simp)).imp fun p hwalk => .step (.declared hdeclared) hwalk
  | case4 base name names hmodule hdeclared target himport =>
      apply (imported tree sound hbase himport names).imp
      rintro p ⟨q, hname, hwalk⟩
      exact .step hname hwalk
  | case5 base name names hmodule hdeclared himport source hsource =>
      -- The level below walks from the module the name comes from; its first step is lifted to
      -- here.
      obtain ⟨hne, hlift⟩ := globSource tree sound hbase hsource
      apply (sound.descend source (name :: names) hne).imp
      intro p hwalk
      cases hwalk with
      | step hname hrest => exact .step (hlift _ hname) hrest
  | case6 base name names hmodule hdeclared himport hsource =>
      exact tree.justified_extend hbase (name :: names)

/-- Climbing goes on from any words that lead somewhere. -/
theorem climb_leads {m base : ItemPath} {words : List String} (h : Leads m words base)
    (hbase : base.segments ≠ []) (names : List String) :
    ∃ more, names = more ++ (climb base names).2 ∧
      Leads m (words ++ more) (climb base names).1 ∧ (climb base names).1.segments ≠ [] := by
  induction names generalizing base words with
  | nil => exact ⟨[], rfl, by simpa [climb] using h, hbase⟩
  | cons name names ih =>
      by_cases hsuper : name = "super"
      · subst hsuper
        obtain ⟨more, hsplit, hleads, hne⟩ :=
          ih h.higher (ItemPath.segments_parent?_getD_ne_nil base)
        refine ⟨"super" :: more, ?_, ?_, ?_⟩
        · simpa [climb] using hsplit
        · simpa [climb] using hleads
        · simpa [climb] using hne
      · refine ⟨[], ?_, ?_, ?_⟩
        · simp [climb, hsuper]
        · simpa [climb, hsuper] using h
        · simpa [climb, hsuper] using hbase

/-- A walk from where the words in front of a path lead. -/
theorem led (tree : t.IsTree) (sound : lower.Sound t) {m base : ItemPath}
    {words : List String} (hleads : Leads m words base) (hbase : base.segments ≠ [])
    (rest : List String) :
    t.Justified (t.MayDenote m ⟨words ++ rest, false⟩) (lower.descendFrom t base rest) :=
  (descendFrom tree sound rest hbase).imp fun _ hwalk => .led hleads hwalk

theorem resolveName (tree : t.IsTree) (sound : lower.Sound t) (q : Query)
    (hq : q.module.segments ≠ []) {name : String} (hname : name ∉ ItemPath.pathWords)
    (rest : List String) :
    t.Justified (t.MayDenote q.module ⟨name :: rest, false⟩)
      (lower.resolveName t q name rest) := by
  rcases resolveName_cases t lower q name rest with
    ⟨target, himport, heq⟩ | ⟨hdeclared, heq⟩ | ⟨_, hsource, heq⟩ | houtside
  · rw [heq]
    apply (imported tree sound hq himport rest).imp
    rintro p ⟨q, hfirst, hwalk⟩
    exact .named hname hfirst hwalk
  · rw [heq]
    apply (descendFrom tree sound (name :: rest) hq).imp
    intro p hwalk
    cases hwalk with
    | step hfirst hrest => exact .named hname hfirst hrest
  · obtain ⟨hne, hlift⟩ := globSource tree sound hq hsource
    rw [heq]
    apply (descendFrom tree sound (name :: rest) hne).imp
    intro p hwalk
    cases hwalk with
    | step hfirst hrest => exact .named hname (hlift _ hfirst) hrest
  · intro horigin
    exact absurd horigin houtside

theorem resolveFrom (tree : t.IsTree) (sound : lower.Sound t) (q : Query)
    (hq : q.module.segments ≠ []) :
    t.Justified (t.MayDenote q.module q.target) (lower.resolveFrom t q) := by
  obtain ⟨m, ⟨segments, leadingColon⟩, skip, throughGlobs⟩ := q
  cases segments with
  | nil =>
      intro _
      exact ⟨hq, fun _ => .here⟩
  | cons first rest =>
      cases leadingColon with
      | true =>
          intro horigin
          simp [Level.resolveFrom] at horigin
      | false =>
          by_cases hcrate : first = "crate"
          · subst hcrate
            exact led tree sound .crate (by simp [ItemPath.crateRoot]) rest
          by_cases hself : first = "self"
          · subst hself
            exact led tree sound .self hq rest
          by_cases hsuper : first = "super"
          · subst hsuper
            obtain ⟨more, hsplit, hleads, hne⟩ :=
              climb_leads (.super (m := m)) (ItemPath.segments_parent?_getD_ne_nil m) rest
            have hwords : "super" :: rest =
                (["super"] ++ more) ++ (climb m ("super" :: rest)).2 := by
              simpa [climb] using hsplit
            have hjustified := led tree sound hleads hne (climb m ("super" :: rest)).2
            rw [← hwords] at hjustified
            simpa [Level.resolveFrom, climb] using hjustified
          · have hname : first ∉ ItemPath.pathWords := by
              simp [ItemPath.pathWords, hcrate, hself, hsuper]
            rw [Level.resolveFrom_name hname]
            exact resolveName tree sound ⟨m, ⟨first :: rest, false⟩, skip, throughGlobs⟩ hq hname
              rest

theorem above (tree : t.IsTree) (sound : lower.Sound t) : (lower.above t).Sound t where
  resolve := resolveFrom tree sound
  descend _ names hbase := descendFrom tree sound names hbase
  outside _ names hmodule := descendFrom_outside hmodule names

end Sound

theorem sound_ofDepth (tree : t.IsTree) (depth : Nat) : (ofDepth t depth).Sound t := by
  induction depth with
  | zero => exact sound_last tree
  | succ depth ih => exact ih.above tree

end Level

namespace SymbolTable

/-- Resolution into the crate is sound: a path is never taken for a declared item that no chain of
declarations, imports and glob imports leads to from where the path stands. -/
theorem mayDenote_of_resolve_local {c : Corpus} (loaded : c.Loaded)
    (plain : c.NamesModulesPlainly) (external : List ItemPath) {m p : ItemPath}
    (hm : (c.table external).isModule m = true) (segments : List String)
    (hresolve : (c.table external).resolve m segments false = ⟨p, .local⟩)
    (hcontains : (c.table external).contains p = true) :
    (c.table external).MayDenote m ⟨segments, false⟩ p := by
  have tree := Corpus.isTree_table loaded plain external
  have sound := Level.sound_ofDepth tree Level.depthLimit
  have hjustified := sound.resolve ⟨m, ⟨segments, false⟩, none, true⟩
    (tree.rooted hm).segments_ne_nil
  rw [show (Level.ofDepth (c.table external) Level.depthLimit).resolve
    ⟨m, ⟨segments, false⟩, none, true⟩ = ⟨p, .local⟩ from hresolve] at hjustified
  exact (hjustified rfl).2 hcontains

/-- Two modules that import from each other, by name in a circle and as a whole, and a third one
that takes a name through both. -/
def roundabout : List Item :=
  [.submodule "a" [] (some [.declaration "X",
    .use false (.path "crate" (.path "b" (.rename "Round" "Back")))]),
   .submodule "b" [] (some [.use false (.path "crate" (.path "a" .glob)),
    .use false (.path "crate" (.path "a" (.rename "Back" "Round")))]),
   .submodule "c" [] (some [.use false (.path "crate" (.path "b" (.rename "X" "Y")))])]

theorem mayDenote_in_roundabout :
    ((Corpus.ofItems roundabout).table []).resolve ⟨["crate", "c"]⟩ ["Y"] false =
        ⟨⟨["crate", "a", "X"]⟩, .local⟩ ∧
      ((Corpus.ofItems roundabout).table []).MayDenote ⟨["crate", "c"]⟩ ⟨["Y"], false⟩
        ⟨["crate", "a", "X"]⟩ := by
  have hresolve : ((Corpus.ofItems roundabout).table []).resolve ⟨["crate", "c"]⟩ ["Y"] false =
      ⟨⟨["crate", "a", "X"]⟩, .local⟩ := by decide +kernel
  exact ⟨hresolve, mayDenote_of_resolve_local (Corpus.loaded_ofItems roundabout (by decide +kernel))
    (by decide +kernel) [] (by decide +kernel) ["Y"] hresolve (by decide +kernel)⟩

end SymbolTable

end MarkerIndex
