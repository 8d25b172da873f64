import MarkerIndex.Crate.Resolution
import MarkerIndex.Proofs.Table
/-!
What one level of looking up does: each step of a walk, each source of a first name. The proofs
about whole resolutions go by these and do not open the functions again.
-/

namespace MarkerIndex

namespace ItemPath

/-- The words at the start of a path that are no names. -/
def pathWords : List String := ["crate", "self", "super"]

end ItemPath

namespace Level

variable {t : SymbolTable} {lower : Level} {m : ItemPath} {name : String} {rest : List String}

theorem descendFrom_outside (h : t.isModule m = false) (names : List String) :
    lower.descendFrom t m names = ⟨m.extend names, .local⟩ := by
  cases names with
  | nil => simp [descendFrom]
  | cons name rest => simp only [descendFrom, h, Bool.not_false, ↓reduceIte]

@[simp] theorem descendFrom_nil : lower.descendFrom t m [] = ⟨m, .local⟩ := by
  simp [descendFrom]

theorem descendFrom_declared (hm : t.isModule m = true) (h : t.declares m name = true) :
    lower.descendFrom t m (name :: rest) = lower.descendFrom t (m.join name) rest := by
  rw [descendFrom]
  simp only [hm, h, Bool.not_true, Bool.false_eq_true, ↓reduceIte]

theorem descendFrom_imported {target : ImportTarget} (hdeclared : t.declares m name = false)
    (h : t.import? m name = some target) :
    lower.descendFrom t m (name :: rest) =
      lower.append (lower.followImport m name target) rest := by
  rw [descendFrom]
  simp only [SymbolTable.isModule_of_import? h, hdeclared, h, Bool.not_true, Bool.false_eq_true,
    ↓reduceIte]

theorem descendFrom_unbound (hm : t.isModule m = true) (hdeclared : t.declares m name = false)
    (himport : t.import? m name = none) :
    lower.descendFrom t m (name :: rest) =
      match lower.globSource? t m name with
      | some source => lower.descend source (name :: rest)
      | none => ⟨m.extend (name :: rest), .local⟩ := by
  rw [descendFrom, hm, hdeclared, himport]
  rfl

/-- The induction that a walk by names follows. At a name it stands outside of the crate's modules,
or goes down by a declaration, or comes to an import, or to nothing of these. -/
@[elab_as_elim]
theorem walk_induct (t : SymbolTable) {motive : ItemPath → List String → Prop}
    (nil : ∀ m, motive m [])
    (outside : ∀ m name rest, t.isModule m = false → motive m (name :: rest))
    (declared : ∀ m name rest, t.isModule m = true → t.declares m name = true →
      motive (m.join name) rest → motive m (name :: rest))
    (imported : ∀ m name rest target, t.declares m name = false → t.import? m name = some target →
      motive m (name :: rest))
    (unbound : ∀ m name rest, t.isModule m = true → t.declares m name = false →
      t.import? m name = none → motive m (name :: rest))
    (m : ItemPath) (names : List String) : motive m names := by
  induction names generalizing m with
  | nil => exact nil m
  | cons name rest ih =>
      cases hmodule : t.isModule m with
      | false => exact outside m name rest hmodule
      | true =>
          cases hdeclared : t.declares m name with
          | true => exact declared m name rest hmodule hdeclared (ih _)
          | false =>
              cases himport : t.import? m name with
              | some target => exact imported m name rest target hdeclared himport
              | none => exact unbound m name rest hmodule hdeclared himport

theorem climb_subset (m : ItemPath) (names : List String) : (climb m names).2 ⊆ names := by
  fun_induction climb m names with
  | case1 => simp
  | case2 m rest ih => exact fun name member => List.mem_cons_of_mem _ (ih member)
  | case3 => simp

@[simp] theorem append_nil (found : Resolution) : lower.append found [] = found := by
  simp [append]

theorem append_local (hrest : rest ≠ []) :
    lower.append ⟨m, .local⟩ rest = lower.descend m rest := by
  simp [append, hrest]

theorem append_of_ne_nil {found : Resolution} (hrest : rest ≠ [])
    (h : (lower.append found rest).origin = .local) :
    found.origin = .local ∧ lower.append found rest = lower.descend found.path rest := by
  cases horigin : found.origin <;> simp_all [append]

theorem followImport_of_local {target : ImportTarget}
    (h : (lower.followImport m name target).origin = .local) :
    lower.followImport m name target = lower.resolve ⟨m, target, some name, true⟩ := by
  cases horigin : (lower.resolve ⟨m, target, some name, true⟩).origin <;>
    simp_all [followImport]

theorem globSource?_of_globs_eq {target : ImportTarget} {base : ItemPath}
    (hglobs : t.globs m = [target]) (hbase : lower.globBase m target = ⟨base, .local⟩)
    (name : String) :
    lower.globSource? t m name =
      if t.declares base name || (t.import? base name).isSome then some base else none := by
  rw [globSource?, hglobs, List.findSome?_singleton, hbase]
  simp only [decide_true, Bool.true_and]

/-- A glob import of a module of this crate gives no items of other crates. -/
theorem externalGlob?_of_globs_eq {target : ImportTarget} {base : ItemPath}
    (hglobs : t.globs m = [target]) (hbase : lower.globBase m target = ⟨base, .local⟩)
    (segments : List String) : lower.externalGlob? t m segments = none := by
  simp [externalGlob?, hglobs, hbase]

theorem globSource?_eq_some {base : ItemPath} (h : lower.globSource? t m name = some base) :
    ∃ target ∈ t.globs m, lower.globBase m target = ⟨base, .local⟩ ∧
      (t.declares base name = true ∨ (t.import? base name).isSome = true) := by
  obtain ⟨target, member, hfound⟩ := List.exists_of_findSome?_eq_some h
  simp only [Bool.and_eq_true, decide_eq_true_eq, Bool.or_eq_true, Option.ite_none_right_eq_some,
    Option.some.injEq] at hfound
  obtain ⟨⟨horigin, hvisible⟩, rfl⟩ := hfound
  refine ⟨target, member, ?_, hvisible⟩
  cases hbase : lower.globBase m target
  simp_all

/-- An item of another crate that is meant by a glob import lies below where the glob leads. -/
theorem externalGlob?_eq_some {segments : List String} {p : ItemPath}
    (h : lower.externalGlob? t m segments = some p) :
    ∃ target ∈ t.globs m, (lower.globBase m target).origin ≠ .local ∧
      p = (lower.globBase m target).path.extend segments := by
  obtain ⟨target, member, hfound⟩ := List.exists_of_findSome?_eq_some h
  simp only [Bool.and_eq_true, decide_eq_true_eq, Option.ite_none_right_eq_some,
    Option.some.injEq] at hfound
  obtain ⟨⟨horigin, -⟩, rfl⟩ := hfound
  exact ⟨target, member, horigin, rfl⟩

section

variable {q : Query}

theorem resolveName_bound {target : ImportTarget} (hskip : q.skip ≠ some name)
    (h : t.import? q.module name = some target) :
    lower.resolveName t q name rest =
      lower.append (lower.followImport q.module name target) rest := by
  simp only [resolveName, hskip, ↓reduceIte, h]

theorem resolveName_declared (himport : t.import? q.module name = none)
    (h : t.declares q.module name = true) :
    lower.resolveName t q name rest = lower.descendFrom t q.module (name :: rest) := by
  simp only [resolveName, himport, ite_self, h, ↓reduceIte]

theorem resolveName_globbed (himport : t.import? q.module name = none)
    (hdeclared : t.declares q.module name = false) (hglobs : q.throughGlobs = true)
    {base : ItemPath} (hsource : lower.globSource? t q.module name = some base) :
    lower.resolveName t q name rest = lower.descendFrom t base (name :: rest) := by
  simp [resolveName, himport, hdeclared, hglobs, hsource]

theorem resolveName_unknown (himport : t.import? q.module name = none)
    (hdeclared : t.declares q.module name = false) (hglobs : q.throughGlobs = true)
    (hsource : lower.globSource? t q.module name = none)
    (hexternal : lower.externalGlob? t q.module [name] = none) :
    lower.resolveName t q name [] = ⟨⟨[name]⟩, .unscoped⟩ := by
  simp [resolveName, himport, hdeclared, hglobs, hsource, hexternal]

/-- Where the meaning of a name may come from: a binding, a declaration, a module that is imported
as a whole, or outside of the crate. -/
theorem resolveName_cases (t : SymbolTable) (lower : Level) (q : Query) (name : String)
    (rest : List String) :
    (∃ target, t.import? q.module name = some target ∧
      lower.resolveName t q name rest =
        lower.append (lower.followImport q.module name target) rest) ∨
    (t.declares q.module name = true ∧
      lower.resolveName t q name rest = lower.descendFrom t q.module (name :: rest)) ∨
    (∃ base, lower.globSource? t q.module name = some base ∧
      lower.resolveName t q name rest = lower.descendFrom t base (name :: rest)) ∨
    (lower.resolveName t q name rest).origin ≠ .local := by
  rw [resolveName]
  split
  · next target hbinding =>
      obtain ⟨-, himport⟩ := Option.ite_none_left_eq_some.mp hbinding
      exact Or.inl ⟨target, himport, rfl⟩
  · by_cases hdeclared : t.declares q.module name = true
    · exact Or.inr (Or.inl ⟨hdeclared, by simp [hdeclared]⟩)
    · simp only [hdeclared, Bool.false_eq_true, ↓reduceIte]
      split
      · next base hsource =>
          obtain ⟨-, hglob⟩ := Option.ite_none_right_eq_some.mp hsource
          exact Or.inr (Or.inr (Or.inl ⟨base, hglob, rfl⟩))
      · refine Or.inr (Or.inr (Or.inr ?_))
        split
        · simp
        · by_cases hrest : rest = [] <;> simp [hrest]

/-- A path of another start than `crate`, `self` and `super` begins with a name. -/
theorem resolveFrom_name (hname : name ∉ ItemPath.pathWords) (skip : Option String)
    (throughGlobs : Bool) :
    lower.resolveFrom t ⟨m, ⟨name :: rest, false⟩, skip, throughGlobs⟩ =
      lower.resolveName t ⟨m, ⟨name :: rest, false⟩, skip, throughGlobs⟩ name rest := by
  obtain ⟨hcrate, hself, hsuper⟩ : name ≠ "crate" ∧ name ≠ "self" ∧ name ≠ "super" := by
    simpa [ItemPath.pathWords] using hname
  simp [resolveFrom, hcrate, hself, hsuper]

end

end Level

namespace SymbolTable

/-- The level below the first one, which the imports of a whole resolution are followed at. -/
def inner (t : SymbolTable) : Level :=
  Level.ofDepth t (Level.depthLimit - 1)

variable {t : SymbolTable} {m : ItemPath} {name : String}

theorem inner_descend (names : List String) :
    t.inner.descend m names =
      (Level.ofDepth t (Level.depthLimit - 2)).descendFrom t m names := rfl

theorem resolve_self (rest : List String) :
    t.resolve m ("self" :: rest) false = t.inner.descendFrom t m rest := rfl

theorem resolve_crate (rest : List String) :
    t.resolve m ("crate" :: rest) false = t.inner.descendFrom t .crateRoot rest := rfl

/-- A path of the crate that begins with a name is looked up for the name. -/
theorem resolve_name (hname : name ∉ ItemPath.pathWords) (rest : List String) :
    t.resolve m (name :: rest) false =
      t.inner.resolveName t ⟨m, ⟨name :: rest, false⟩, none, true⟩ name rest :=
  Level.resolveFrom_name hname none true

theorem resolve_bound (hname : name ∉ ItemPath.pathWords) {target : ImportTarget}
    (himport : t.import? m name = some target) (rest : List String) :
    t.resolve m (name :: rest) false =
      t.inner.append (t.inner.followImport m name target) rest := by
  rw [resolve_name hname, Level.resolveName_bound (by simp) himport]

end SymbolTable

end MarkerIndex
