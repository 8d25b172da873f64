import MarkerIndex.Proofs.Lookup
import MarkerIndex.Proofs.Pass
import Mathlib.Data.List.Basic
/-!
Items of other crates that are registered with a table. They can only be found by a glob import from
outside of the crate. So they leave every meaning inside the crate as it was, and also the meaning
of a path outside, unless such an import makes a new item of the path, or of a path that an import
on the way names.
-/

namespace MarkerIndex

theorem findSome?_congr {α β : Type} {f g : α → Option β} {xs : List α}
    (h : ∀ x ∈ xs, f x = g x) : xs.findSome? f = xs.findSome? g := by
  rw [← List.head?_filterMap, ← List.head?_filterMap, List.filterMap_congr h]

/-- The path that an import names. -/
def Fact.target? : Fact → Option ImportTarget
  | .binding _ target => some target
  | .glob target => some target
  | _ => none

namespace SymbolTable

@[simp] theorem isModule_withExternal (t : SymbolTable) (items : List ItemPath) (m : ItemPath) :
    (t.withExternal items).isModule m = t.isModule m := rfl

@[simp] theorem declares_withExternal (t : SymbolTable) (items : List ItemPath) (m : ItemPath)
    (name : String) : (t.withExternal items).declares m name = t.declares m name := rfl

@[simp] theorem import?_withExternal (t : SymbolTable) (items : List ItemPath) (m : ItemPath)
    (name : String) : (t.withExternal items).import? m name = t.import? m name := rfl

variable {t : SymbolTable} {items : List ItemPath} {m : ItemPath} {names segments : List String}

/-- What registering items adds to what is known of other crates. -/
theorem new_of_contains_ne {p : ItemPath}
    (h : (t.withExternal items).external.contains p ≠ t.external.contains p) :
    p ∈ items ∧ p.isLocal = false ∧ p ∉ t.external := by
  simpa [withExternal] using h

/-- A glob import of `m` from outside of the crate makes the segments one of the items, which was
not registered before. -/
def Redirects (t : SymbolTable) (items : List ItemPath) (m : ItemPath)
    (segments : List String) : Prop :=
  ∃ target ∈ t.globs m, ∃ depth < Level.depthLimit,
    let base := (Level.ofDepth t depth).globBase m target
    base.origin ≠ .local ∧ base.path.extend segments ∈ items ∧
      (base.path.extend segments).isLocal = false ∧ base.path.extend segments ∉ t.external

instance : Decidable (t.Redirects items m segments) :=
  inferInstanceAs (Decidable (∃ target ∈ t.globs m, ∃ depth < Level.depthLimit, _))

/-- The paths, each with its module, that the meaning of names may depend on: those of imports that
bind one of the names, those of glob imports, and what their names depend on in turn. -/
inductive Involves (t : SymbolTable) : List String → ItemPath → List String → Prop
  | binding {names : List String} {m : ItemPath} {name : String} {target : ImportTarget} :
      name ∈ names → (m, .binding name target) ∈ t.facts → Involves t names m target.segments
  | glob {names : List String} {m : ItemPath} {target : ImportTarget} :
      (m, .glob target) ∈ t.facts → Involves t names m target.segments
  | further {names segments later : List String} {m other : ItemPath} :
      Involves t names m segments → Involves t segments other later → Involves t names other later

theorem Involves.mono {more : List String} (hsub : names ⊆ more) (h : t.Involves names m segments) :
    t.Involves more m segments := by
  induction h generalizing more with
  | binding member hfact => exact .binding (hsub member) hfact
  | glob hfact => exact .glob hfact
  | further _ hlater ih _ => exact .further (ih hsub) hlater

/-- No path that the names depend on is redirected. -/
def Free (t : SymbolTable) (items : List ItemPath) (names : List String) : Prop :=
  ∀ m segments, t.Involves names m segments → ¬ t.Redirects items m segments

/-- The path begins with a name that neither an import nor a declaration of its module stands for.
-/
def LooksOut (t : SymbolTable) (q : Query) : Prop :=
  q.target.leadingColon = false ∧ ∃ first rest, q.target.segments = first :: rest ∧
    first ∉ ItemPath.pathWords ∧ (q.skip = some first ∨ t.import? q.module first = none) ∧
    t.declares q.module first = false

/-- Neither the path itself, if it is looked up through glob imports at all, nor one that it depends
on is redirected. -/
structure Unredirected (t : SymbolTable) (items : List ItemPath) (q : Query) : Prop where
  itself : t.LooksOut q → ¬ t.Redirects items q.module q.target.segments
  further : q.target.leadingColon = false → t.Free items q.target.segments

/-- The names are free where no import at all is redirected. -/
theorem free_of_facts (h : ∀ fact ∈ t.facts, ∀ target ∈ fact.2.target?,
    ¬ t.Redirects items fact.1 target.segments) : t.Free items names := by
  intro m segments hinvolves
  induction hinvolves with
  | binding _ hfact => exact h _ hfact _ rfl
  | glob hfact => exact h _ hfact _ rfl
  | further _ _ _ ih => exact ih

theorem Free.of_subset {less : List String} (hsub : less ⊆ names) (h : t.Free items names) :
    t.Free items less :=
  fun m segments hinvolves => h m segments (hinvolves.mono hsub)

theorem Free.unredirected (h : t.Free items names) {q : Query}
    (hinvolves : t.Involves names q.module q.target.segments) : t.Unredirected items q :=
  ⟨fun _ => h q.module _ hinvolves,
    fun _ other later hlater => h other later (.further hinvolves hlater)⟩

end SymbolTable

/-- Two meanings agree under a condition, and in any case as far as this crate goes. -/
def Resolution.SameIf (free : Prop) (a b : Resolution) : Prop :=
  free ∨ a.origin = .local ∨ b.origin = .local → a = b

namespace Level

open SymbolTable

variable {t : SymbolTable} {items : List ItemPath} {l l' : Level} {m : ItemPath} {name : String}
  {names rest : List String}

/-- Levels of a table before and after items are registered. -/
structure Agrees (t : SymbolTable) (items : List ItemPath) (l l' : Level) : Prop where
  resolve : ∀ q, Resolution.SameIf (t.Unredirected items q) (l.resolve q) (l'.resolve q)
  descend : ∀ m rest, Resolution.SameIf (t.Free items rest) (l.descend m rest) (l'.descend m rest)

namespace Agrees

theorem followImport (agrees : Agrees t items l l') {target : ImportTarget}
    (himport : t.import? m name = some target) (hname : name ∈ names) :
    Resolution.SameIf (t.Free items names) (l.followImport m name target)
      (l'.followImport m name target) := by
  intro h
  have hsame :
      l.resolve ⟨m, target, some name, true⟩ = l'.resolve ⟨m, target, some name, true⟩ := by
    apply agrees.resolve
    rcases h with hfree | hlocal | hlocal
    · exact Or.inl (hfree.unredirected (.binding hname (mem_facts_of_import? himport)))
    · exact Or.inr (Or.inl (followImport_of_local hlocal ▸ hlocal))
    · exact Or.inr (Or.inr (followImport_of_local hlocal ▸ hlocal))
  simp only [Level.followImport, hsame]

theorem append (agrees : Agrees t items l l') {free : Prop} {found found' : Resolution}
    (hfound : Resolution.SameIf free found found') (hrest : free → t.Free items rest) :
    Resolution.SameIf free (l.append found rest) (l'.append found' rest) := by
  intro h
  by_cases hnil : rest = []
  · subst hnil
    simpa using hfound (by simpa using h)
  have hsame : found = found' := by
    apply hfound
    rcases h with hfree | hlocal | hlocal
    · exact Or.inl hfree
    · exact Or.inr (Or.inl (append_of_ne_nil hnil hlocal).1)
    · exact Or.inr (Or.inr (append_of_ne_nil hnil hlocal).1)
  subst hsame
  cases horigin : found.origin with
  | «local» =>
      have happend : ∀ level : Level, level.append found rest = level.descend found.path rest := by
        intro level
        simp [Level.append, hnil, horigin]
      rw [happend, happend] at h ⊢
      exact agrees.descend found.path rest (h.imp_left hrest)
  | _ => simp [Level.append, hnil, horigin]

/-- The module of this crate that a glob import finds a name in is the same. -/
theorem globSource? (agrees : Agrees t items l l') (m : ItemPath) (name : String) :
    l.globSource? t m name = l'.globSource? (t.withExternal items) m name := by
  apply findSome?_congr
  intro target _
  have hbase : (l.globBase m target).origin = .local ∨ (l'.globBase m target).origin = .local →
      l.globBase m target = l'.globBase m target :=
    fun h => agrees.resolve ⟨m, target, none, false⟩ (Or.inr h)
  by_cases hlocal : (l.globBase m target).origin = .local
  · rw [hbase (Or.inl hlocal)]
    rfl
  · by_cases hlocal' : (l'.globBase m target).origin = .local
    · rw [hbase (Or.inr hlocal')]
      rfl
    · simp [hlocal, hlocal']

/-- The item of another crate that a glob import makes of a path is the same, where nothing
redirects the path. -/
theorem externalGlob? {depth : Nat} (hdepth : depth < depthLimit)
    (agrees : Agrees t items (ofDepth t depth) l') (hfree : t.Free items names)
    (hsteady : ¬ t.Redirects items m names) :
    (ofDepth t depth).externalGlob? t m names =
      l'.externalGlob? (t.withExternal items) m names := by
  apply findSome?_congr
  intro target member
  have hbase : (ofDepth t depth).globBase m target = l'.globBase m target :=
    agrees.resolve ⟨m, target, none, false⟩
      (Or.inl (hfree.unredirected (.glob (mem_globs.mp member))))
  by_cases hlocal : ((ofDepth t depth).globBase m target).origin = .local
  · simp [← hbase, hlocal]
  · have hknown : (t.withExternal items).external.contains
          (((ofDepth t depth).globBase m target).path.extend names) =
        t.external.contains (((ofDepth t depth).globBase m target).path.extend names) := by
      by_contra hne
      obtain ⟨hitems, hcrate, hnew⟩ := new_of_contains_ne hne
      exact hsteady ⟨target, member, depth, hdepth, hlocal, hitems, hcrate, hnew⟩
    simp only [← hbase, hknown]

/-- Further items of other crates change no walk whose names they leave free. -/
theorem descendFrom (agrees : Agrees t items l l') (current : ItemPath) (names : List String) :
    Resolution.SameIf (t.Free items names) (l.descendFrom t current names)
      (l'.descendFrom (t.withExternal items) current names) := by
  have hbehind {name : String} {rest : List String} :
      t.Free items (name :: rest) → t.Free items rest :=
    Free.of_subset (List.subset_cons_self name rest)
  induction current, names using walk_induct t with
  | nil current => simp [Resolution.SameIf]
  | outside current name rest hm => simp [Resolution.SameIf, descendFrom_outside, hm]
  | declared current name rest hm hdeclared ih =>
      rw [descendFrom_declared hm hdeclared, descendFrom_declared (by simpa) (by simpa)]
      exact fun h => ih (h.imp_left hbehind)
  | imported current name rest target hdeclared himport =>
      rw [descendFrom_imported hdeclared himport, descendFrom_imported (by simpa) (by simpa)]
      exact agrees.append (agrees.followImport himport (by simp)) hbehind
  | unbound current name rest hm hdeclared himport =>
      rw [descendFrom_unbound hm hdeclared himport,
        descendFrom_unbound (by simpa) (by simpa) (by simpa), ← agrees.globSource? current name]
      cases l.globSource? t current name with
      | none => exact fun _ => rfl
      | some source => exact agrees.descend source (name :: rest)

theorem outside_ne_local (item : Option ItemPath) (name : String) (rest : List String) :
    (match item with
      | some path => (⟨path, .external⟩ : Resolution)
      | none => ⟨⟨name :: rest⟩, if rest = [] then .unscoped else .external⟩).origin ≠ .local := by
  cases item with
  | some path => simp
  | none => by_cases hrest : rest = [] <;> simp [hrest]

theorem resolveName {depth : Nat} (hdepth : depth < depthLimit)
    (agrees : Agrees t items (ofDepth t depth) l') {q : Query} {name : String}
    {rest : List String} (htarget : q.target = ⟨name :: rest, false⟩)
    (hname : name ∉ ItemPath.pathWords) :
    Resolution.SameIf (t.Unredirected items q) ((ofDepth t depth).resolveName t q name rest)
      (l'.resolveName (t.withExternal items) q name rest) := by
  have hfree : t.Unredirected items q → t.Free items (name :: rest) := by
    intro h
    simpa [htarget] using h.further
  have hdescend : ∀ current, Resolution.SameIf (t.Unredirected items q)
      ((ofDepth t depth).descendFrom t current (name :: rest))
      (l'.descendFrom (t.withExternal items) current (name :: rest)) :=
    fun current h => agrees.descendFrom current _ (h.imp_left hfree)
  simp only [Level.resolveName, import?_withExternal, declares_withExternal,
    ← agrees.globSource? q.module name]
  split
  · next target hbinding =>
      obtain ⟨-, himport⟩ := Option.ite_none_left_eq_some.mp hbinding
      intro h
      exact agrees.append (agrees.followImport himport (by simp))
        (Free.of_subset (List.subset_cons_self name rest)) (h.imp_left hfree)
  · next hbinding =>
      have hunbound : q.skip = some name ∨ t.import? q.module name = none := by
        by_cases hskip : q.skip = some name
        · exact Or.inl hskip
        · exact Or.inr (by simpa [hskip] using hbinding)
      cases hdeclared : t.declares q.module name with
      | true => exact hdescend q.module
      | false =>
          have hout : t.LooksOut q :=
            ⟨by rw [htarget], name, rest, by rw [htarget], hname, hunbound, hdeclared⟩
          simp only [Bool.false_eq_true, ↓reduceIte]
          split
          · next source _ => exact hdescend source
          · rintro (h | hlocal | hlocal)
            · have hsteady : ¬ t.Redirects items q.module (name :: rest) := by
                simpa [htarget] using h.itself hout
              rw [agrees.externalGlob? hdepth (hfree h) hsteady]
            · exact absurd hlocal (outside_ne_local _ name rest)
            · exact absurd hlocal (outside_ne_local _ name rest)

theorem resolveFrom {depth : Nat} (hdepth : depth < depthLimit)
    (agrees : Agrees t items (ofDepth t depth) l') (q : Query) :
    Resolution.SameIf (t.Unredirected items q) ((ofDepth t depth).resolveFrom t q)
      (l'.resolveFrom (t.withExternal items) q) := by
  obtain ⟨m, ⟨segments, leadingColon⟩, skip, throughGlobs⟩ := q
  cases segments with
  | nil => exact fun _ => rfl
  | cons first rest =>
      cases leadingColon with
      | true => exact fun _ => rfl
      | false =>
          have hdescend : ∀ current {names : List String}, names ⊆ first :: rest →
              Resolution.SameIf
                (t.Unredirected items ⟨m, ⟨first :: rest, false⟩, skip, throughGlobs⟩)
                ((ofDepth t depth).descendFrom t current names)
                (l'.descendFrom (t.withExternal items) current names) :=
            fun current _ hsub h =>
              agrees.descendFrom current _ (h.imp_left fun h => (h.further rfl).of_subset hsub)
          simp only [Level.resolveFrom, Bool.false_eq_true, ↓reduceIte]
          split
          · exact hdescend _ (List.subset_cons_self first rest)
          · split
            · exact hdescend _ (List.subset_cons_self first rest)
            · split
              · exact hdescend _ (climb_subset m (first :: rest))
              · next hcrate hself hsuper =>
                  exact agrees.resolveName hdepth rfl (by simp [ItemPath.pathWords, *])

theorem ofDepth {depth : Nat} (hdepth : depth ≤ depthLimit) :
    Agrees t items (ofDepth t depth) (Level.ofDepth (t.withExternal items) depth) := by
  induction depth with
  | zero => exact ⟨fun _ _ => rfl, fun _ _ _ => rfl⟩
  | succ depth ih =>
      have agrees := ih (by omega)
      exact ⟨agrees.resolveFrom (by omega), agrees.descendFrom⟩

end Agrees

end Level

namespace SymbolTable

variable {t : SymbolTable} {items : List ItemPath} {m : ItemPath} {segments : List String}
  {leadingColon : Bool}

/-- Registering items changes no meaning inside the crate, and none of a path that is not
redirected. -/
theorem resolve_withExternal
    (h : t.Unredirected items ⟨m, ⟨segments, leadingColon⟩, none, true⟩ ∨
      (t.resolve m segments leadingColon).origin = .local ∨
      ((t.withExternal items).resolve m segments leadingColon).origin = .local) :
    t.resolve m segments leadingColon = (t.withExternal items).resolve m segments leadingColon :=
  (Level.Agrees.ofDepth (Nat.le_refl _)).resolve _ h

/-- A meaning inside the crate is the same for every table of the crate, since it is the one that
the table has with nothing registered. -/
theorem resolve_local_of_external {c : Corpus} (known more : List ItemPath)
    (h : ((c.table known).resolve m segments leadingColon).origin = .local) :
    (c.table more).resolve m segments leadingColon =
      (c.table known).resolve m segments leadingColon := by
  have hbare : ∀ external, c.table external = (ofCorpus c).withExternal external := fun _ => rfl
  rw [hbare] at h
  have hknown : (ofCorpus c).resolve m segments leadingColon =
      (c.table known).resolve m segments leadingColon :=
    resolve_withExternal (Or.inr (Or.inr h))
  have hlocal : ((ofCorpus c).resolve m segments leadingColon).origin = .local := by
    rw [hknown]
    exact h
  have hmore : (ofCorpus c).resolve m segments leadingColon =
      (c.table more).resolve m segments leadingColon :=
    resolve_withExternal (Or.inr (Or.inl hlocal))
  rw [← hmore, hknown]

end SymbolTable

/-- What is registered of other crates makes no difference inside a crate. A path means something of
the crate in one table just when it does in any other table of the crate, and then the same; and
both know the same items. So the table that a pass reads attributes with has the identities inside
the crate that directives were read with. -/
theorem Corpus.local_whatever_registered (c : Corpus) :
    (∀ (known more : List ItemPath) (m : ItemPath) (segments : List String) (leadingColon : Bool),
      (((c.table known).resolve m segments leadingColon).origin = .local ↔
        ((c.table more).resolve m segments leadingColon).origin = .local) ∧
      (((c.table known).resolve m segments leadingColon).origin = .local →
        (c.table more).resolve m segments leadingColon =
          (c.table known).resolve m segments leadingColon)) ∧
    (∀ (known more : List ItemPath) (p : ItemPath),
      (c.table more).contains p = (c.table known).contains p) ∧
    ∀ (settings : Settings) (t : SymbolTable) (markers : List ItemPath),
      Pass.request c settings = .ok (t, markers) → ∀ m path,
        (((Pass.firstTable c settings).resolvePath m path).origin = .local ↔
          (t.resolvePath m path).origin = .local) ∧
        (((Pass.firstTable c settings).resolvePath m path).origin = .local →
          t.resolvePath m path = (Pass.firstTable c settings).resolvePath m path) := by
  have hboth : ∀ (known more : List ItemPath) (m : ItemPath) (segments : List String)
      (leadingColon : Bool),
      (((c.table known).resolve m segments leadingColon).origin = .local ↔
        ((c.table more).resolve m segments leadingColon).origin = .local) ∧
      (((c.table known).resolve m segments leadingColon).origin = .local →
        (c.table more).resolve m segments leadingColon =
          (c.table known).resolve m segments leadingColon) := by
    intro known more m segments leadingColon
    refine ⟨⟨fun h => ?_, fun h => ?_⟩, SymbolTable.resolve_local_of_external known more⟩
    · rw [SymbolTable.resolve_local_of_external known more h, h]
    · rw [SymbolTable.resolve_local_of_external more known h, h]
  refine ⟨hboth, fun _ _ _ => rfl, ?_⟩
  intro settings t markers h m path
  have htable : t = c.table ([settings.registration, settings.directive] ++ markers) := by
    rw [← Corpus.withExternal_table]
    exact (Pass.request_eq_ok_iff.mp h).2
  rw [htable]
  exact hboth _ _ m path.segments path.leadingColon

end MarkerIndex
