import MarkerIndex.Proofs.External
/-!
Tables that say the same of all modules but some new ones. A walk that gets into a new module finds
nothing there, as it did when there was no module, so as long as no glob import reads from a new
module every path means what it meant before. With no new modules at all this says that the meaning
of paths depends on what is said of each module, whatever the order of the modules. What is bound to
a name may change as well, where neither the path nor any import goes by that name.
-/

namespace MarkerIndex

namespace SymbolTable

variable {t t' : SymbolTable} {m : ItemPath} {name : String}

theorem isModule_congr (h : t'.factsOf m = t.factsOf m) : t'.isModule m = t.isModule m := by
  rw [Bool.eq_iff_iff, isModule_iff, isModule_iff]
  simp only [← mem_factsOf, h]

theorem hasItem_congr (h : t'.factsOf m = t.factsOf m) : t'.hasItem m name = t.hasItem m name := by
  rw [Bool.eq_iff_iff, hasItem, hasItem, List.contains_iff_mem, List.contains_iff_mem,
    ← mem_factsOf, ← mem_factsOf, h]

theorem import?_congr (h : t'.factsOf m = t.factsOf m) : t'.import? m name = t.import? m name := by
  rw [import?, import?, h]

theorem globs_congr (h : t'.factsOf m = t.factsOf m) : t'.globs m = t.globs m := by
  rw [globs, globs, h]

/-- The second table knows some modules more, and says the same of all others. Walks that start in a
new module find nothing. -/
structure Grows (inside : ItemPath → Prop) (t t' : SymbolTable) : Prop where
  external : t'.external = t.external
  facts : ∀ m, ¬ inside m → t'.factsOf m = t.factsOf m
  declares : ∀ m name, ¬ inside m → t'.declares m name = t.declares m name
  free : ∀ m, inside m → t.isModule m = false
  walk : ∀ m, inside m → ∀ (lower : Level) (names : List String),
    lower.descendFrom t' m names = ⟨m.extend names, .local⟩

/-- The second table differs from the first in some new modules, in which walks find nothing, and in
what is bound to names without `P`. No import leads by such a name anywhere. -/
structure Resembles (inside : ItemPath → Prop) (P : String → Prop) (t t' : SymbolTable) : Prop where
  external : t'.external = t.external
  isModule : ∀ m, ¬ inside m → t'.isModule m = t.isModule m
  declares : ∀ m name, ¬ inside m → t'.declares m name = t.declares m name
  imports : ∀ m name, ¬ inside m → P name → t'.import? m name = t.import? m name
  globs : ∀ m, ¬ inside m → t'.globs m = t.globs m
  imported : ∀ m name target, t.import? m name = some target → ∀ word ∈ target.segments, P word
  globbed : ∀ m, ∀ target ∈ t.globs m, ∀ word ∈ target.segments, P word
  free : ∀ m, inside m → t.isModule m = false
  walk : ∀ m, inside m → ∀ (lower : Level) (names : List String),
    lower.descendFrom t' m names = ⟨m.extend names, .local⟩

theorem Grows.resembles {inside : ItemPath → Prop} (grows : Grows inside t t') :
    Resembles inside (fun _ => True) t t' where
  external := grows.external
  isModule m hm := isModule_congr (grows.facts m hm)
  declares := grows.declares
  imports m _ hm _ := import?_congr (grows.facts m hm)
  globs m hm := globs_congr (grows.facts m hm)
  imported _ _ _ _ _ _ := trivial
  globbed _ _ _ _ _ := trivial
  free := grows.free
  walk := grows.walk

theorem Resembles.not_inside {inside : ItemPath → Prop} {P : String → Prop}
    (resembles : Resembles inside P t t') (hm : t.isModule m = true) : ¬ inside m := by
  intro hinside
  rw [resembles.free m hinside] at hm
  cases hm

/-- All that is said of the module is that it is there and that it holds some items. -/
def Plain (t : SymbolTable) (m : ItemPath) : Prop :=
  ∀ fact, (m, fact) ∈ t.facts → fact = .module ∨ ∃ name, fact = .item name

theorem Plain.import?_eq_none (h : t.Plain m) (name : String) : t.import? m name = none := by
  cases himport : t.import? m name with
  | none => rfl
  | some target => rcases h _ (mem_facts_of_import? himport) with hfact | ⟨_, hfact⟩ <;> cases hfact

theorem Plain.globs_eq_nil (h : t.Plain m) : t.globs m = [] := by
  apply List.eq_nil_iff_forall_not_mem.mpr
  intro target member
  rcases h _ (mem_globs.mp member) with hfact | ⟨_, hfact⟩ <;> cases hfact

/-- Walks find nothing in modules that import nothing and declare no other modules. -/
theorem walk_of_plain {inside : ItemPath → Prop} (hplain : ∀ m, inside m → t.Plain m)
    (hclosed : ∀ m name, inside m → inside (m.join name) ∨ t.isModule (m.join name) = false)
    (hm : inside m) (lower : Level) (names : List String) :
    lower.descendFrom t m names = ⟨m.extend names, .local⟩ := by
  induction m, names using Level.walk_induct t with
  | nil m => simp
  | outside m name rest hmodule => exact Level.descendFrom_outside hmodule _
  | declared m name rest hmodule hdeclared ih =>
      rw [Level.descendFrom_declared hmodule hdeclared, ItemPath.extend_cons]
      rcases hclosed m name hm with hinside | hleft
      · exact ih hinside
      · exact Level.descendFrom_outside hleft rest
  | imported m name rest target _ himport =>
      rw [(hplain m hm).import?_eq_none name] at himport
      cases himport
  | unbound m name rest hmodule hdeclared himport =>
      have hsource : lower.globSource? t m name = none := by
        rw [Level.globSource?, (hplain m hm).globs_eq_nil]
        rfl
      rw [Level.descendFrom_unbound hmodule hdeclared himport, hsource]

/-- No glob import reads from one of the modules, however deep it is followed. -/
def Unglobbed (inside : ItemPath → Prop) (t : SymbolTable) : Prop :=
  ∀ depth < Level.depthLimit, ∀ m, ∀ target ∈ t.globs m, ∀ base, inside base →
    (Level.ofDepth t depth).globBase m target ≠ ⟨base, .local⟩

end SymbolTable

namespace Level

open SymbolTable

variable {inside : ItemPath → Prop} {P : String → Prop} {t t' : SymbolTable} {l l' : Level}
  {m : ItemPath} {name : String} {names rest : List String}

/-- The levels agree on all paths of names with `P` that do not stand in a new module. -/
structure Matches (inside : ItemPath → Prop) (P : String → Prop) (l l' : Level) : Prop where
  resolve : ∀ q, ¬ inside q.module → (∀ word ∈ q.target.segments, P word) →
    l'.resolve q = l.resolve q
  descend : ∀ m names, (∀ word ∈ names, P word) → l'.descend m names = l.descend m names

namespace Matches

theorem append (agree : Matches inside P l l') (found : Resolution)
    (hrest : ∀ word ∈ rest, P word) :
    l'.append found rest = l.append found rest := by
  simp only [Level.append, agree.descend _ rest hrest]

section

variable (agree : Matches inside P l l') (resembles : Resembles inside P t t')
  (unglobbed : ∀ m, ∀ target ∈ t.globs m, ∀ base, inside base →
    l.globBase m target ≠ ⟨base, .local⟩)

include agree resembles unglobbed

omit unglobbed in
theorem followImport (hm : ¬ inside m) {target : ImportTarget}
    (h : t.import? m name = some target) :
    l'.followImport m name target = l.followImport m name target := by
  have hsame := agree.resolve ⟨m, target, some name, true⟩ hm (resembles.imported m name target h)
  simp only [Level.followImport, hsame]

omit unglobbed in
theorem globBase (hm : ¬ inside m) {target : ImportTarget} (h : target ∈ t.globs m) :
    l'.globBase m target = l.globBase m target :=
  agree.resolve _ hm (resembles.globbed m target h)

theorem globSource? (hm : ¬ inside m) (hname : P name) :
    l'.globSource? t' m name = l.globSource? t m name := by
  rw [Level.globSource?, Level.globSource?, resembles.globs m hm]
  apply findSome?_congr
  intro target member
  rw [agree.globBase resembles hm member]
  by_cases hlocal : (l.globBase m target).origin = .local
  · have houtside : ¬ inside (l.globBase m target).path := by
      intro hinside
      apply unglobbed m target member _ hinside
      rw [← hlocal]
    simp only [resembles.declares _ name houtside, resembles.imports _ name houtside hname]
  · simp [hlocal]

omit unglobbed in
theorem externalGlob? (hm : ¬ inside m) (segments : List String) :
    l'.externalGlob? t' m segments = l.externalGlob? t m segments := by
  rw [Level.externalGlob?, Level.externalGlob?, resembles.globs m hm, resembles.external]
  apply findSome?_congr
  intro target member
  rw [agree.globBase resembles hm member]

/-- In a new module both walks end. Elsewhere both take the same step, as the tables agree on it. -/
theorem descendFrom (current : ItemPath) (hnames : ∀ word ∈ names, P word) :
    l'.descendFrom t' current names = l.descendFrom t current names := by
  induction current, names using walk_induct t with
  | nil current => simp
  | outside current name rest hm =>
      by_cases hinside : inside current
      · rw [resembles.walk current hinside, descendFrom_outside hm]
      · rw [descendFrom_outside ((resembles.isModule current hinside).trans hm),
          descendFrom_outside hm]
  | declared current name rest hm hdeclared ih =>
      have hinside := resembles.not_inside hm
      rw [descendFrom_declared ((resembles.isModule current hinside).trans hm)
        ((resembles.declares current name hinside).trans hdeclared),
        descendFrom_declared hm hdeclared]
      exact ih (List.forall_mem_cons.mp hnames).2
  | imported current name rest target hdeclared himport =>
      have hinside := resembles.not_inside (isModule_of_import? himport)
      obtain ⟨hname, hrest⟩ := List.forall_mem_cons.mp hnames
      rw [descendFrom_imported ((resembles.declares current name hinside).trans hdeclared)
        ((resembles.imports current name hinside hname).trans himport),
        descendFrom_imported hdeclared himport, agree.append _ hrest,
        agree.followImport resembles hinside himport]
  | unbound current name rest hm hdeclared himport =>
      have hinside := resembles.not_inside hm
      have hname := (List.forall_mem_cons.mp hnames).1
      rw [descendFrom_unbound ((resembles.isModule current hinside).trans hm)
        ((resembles.declares current name hinside).trans hdeclared)
        ((resembles.imports current name hinside hname).trans himport),
        descendFrom_unbound hm hdeclared himport,
        agree.globSource? resembles unglobbed hinside hname]
      cases l.globSource? t current name with
      | none => rfl
      | some source => exact agree.descend source (name :: rest) hnames

theorem resolveName {q : Query} (hq : ¬ inside q.module) {first : String}
    (hnames : ∀ word ∈ first :: rest, P word) :
    l'.resolveName t' q first rest = l.resolveName t q first rest := by
  obtain ⟨hfirst, hrest⟩ := List.forall_mem_cons.mp hnames
  have hdescend := fun current => agree.descendFrom resembles unglobbed current hnames
  rw [Level.resolveName, Level.resolveName, resembles.imports _ first hq hfirst,
    resembles.declares _ first hq, agree.globSource? resembles unglobbed hq hfirst,
    agree.externalGlob? resembles hq]
  by_cases hskip : q.skip = some first
  · simp only [hskip, ↓reduceIte, hdescend]
  · simp only [hskip, ↓reduceIte]
    cases himport : t.import? q.module first with
    | none => simp only [hdescend]
    | some target => simp only [agree.append _ hrest, agree.followImport resembles hq himport]

theorem above : Matches inside P (l.above t) (l'.above t') where
  descend current names hnames := agree.descendFrom resembles unglobbed current hnames
  resolve := by
    rintro ⟨m, ⟨segments, leadingColon⟩, skip, throughGlobs⟩ hm hsegments
    simp only [Level.above, Level.resolveFrom]
    cases segments with
    | nil => rfl
    | cons first rest =>
        have hrest := (List.forall_mem_cons.mp hsegments).2
        have hbehind := climb_subset m (first :: rest)
        have hclimbed : ∀ word ∈ (climb m (first :: rest)).2, P word :=
          fun word member => hsegments word (hbehind member)
        simp only [agree.descendFrom resembles unglobbed _ hrest,
          agree.descendFrom resembles unglobbed _ hclimbed,
          agree.resolveName resembles unglobbed hm hsegments]

end

theorem ofDepth (resembles : Resembles inside P t t') (unglobbed : Unglobbed inside t) {depth : Nat}
    (hdepth : depth ≤ depthLimit) :
    Matches inside P (Level.ofDepth t depth) (Level.ofDepth t' depth) := by
  induction depth with
  | zero => exact ⟨fun _ _ _ => rfl, fun _ _ _ => rfl⟩
  | succ depth ih => exact (ih (by omega)).above resembles (unglobbed depth (by omega))

end Matches

end Level

namespace SymbolTable

variable {inside : ItemPath → Prop} {t t' : SymbolTable} {m : ItemPath}

/-- The meaning of a path of names with `P` is the same outside of the new modules. -/
theorem Resembles.resolve {P : String → Prop} (resembles : Resembles inside P t t')
    (unglobbed : Unglobbed inside t) (hm : ¬ inside m) {segments : List String}
    (hsegments : ∀ word ∈ segments, P word) (leadingColon : Bool) :
    t'.resolve m segments leadingColon = t.resolve m segments leadingColon :=
  (Level.Matches.ofDepth resembles unglobbed (Nat.le_refl _)).resolve
    ⟨m, ⟨segments, leadingColon⟩, none, true⟩ hm hsegments

/-- The meaning of a path outside of the new modules stays as it was. -/
theorem Grows.resolve (grows : Grows inside t t') (unglobbed : Unglobbed inside t)
    (hm : ¬ inside m) (segments : List String) (leadingColon : Bool) :
    t'.resolve m segments leadingColon = t.resolve m segments leadingColon :=
  grows.resembles.resolve unglobbed hm (fun _ _ => trivial) leadingColon

/-- Where the same is said of every module, paths mean the same. -/
theorem resolve_congr (hexternal : t'.external = t.external) (h : ∀ m, t'.factsOf m = t.factsOf m)
    (m : ItemPath) (segments : List String) (leadingColon : Bool) :
    t'.resolve m segments leadingColon = t.resolve m segments leadingColon := by
  have grows : Grows (fun _ => False) t t' := by
    constructor
    case external => exact hexternal
    case facts => exact fun m _ => h m
    case declares =>
      intro m name _
      rw [declares, declares, hasItem_congr (h m), isModule_congr (h (m.join name))]
    case free | walk => exact fun _ hinside => hinside.elim
  exact grows.resolve (fun _ _ _ _ _ _ hinside => hinside.elim) id segments leadingColon

/-- Where the same is said of every module, the same is known. -/
theorem contains_congr (h : ∀ m, t'.factsOf m = t.factsOf m) (p : ItemPath) :
    t'.contains p = t.contains p := by
  simp only [contains, isModule_congr (h p), hasItem_congr (h _)]

/-- Items of other crates do not make a glob import read from a module of this crate. -/
theorem Unglobbed.withExternal (unglobbed : Unglobbed inside t) (items : List ItemPath) :
    Unglobbed inside (t.withExternal items) := by
  intro depth hdepth m target member base hbase hsame
  have hagree : Resolution.SameIf _ ((Level.ofDepth t depth).globBase m target)
      ((Level.ofDepth (t.withExternal items) depth).globBase m target) :=
    (Level.Agrees.ofDepth (Nat.le_of_lt hdepth)).resolve ⟨m, target, none, false⟩
  refine unglobbed depth hdepth m target member base hbase ?_
  have hlocal :
      ((Level.ofDepth (t.withExternal items) depth).globBase m target).origin = .local := by
    rw [hsame]
  exact (hagree (Or.inr (Or.inr hlocal))).trans hsame

end SymbolTable

end MarkerIndex
