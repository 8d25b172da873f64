import MarkerIndex.Proofs.Lookup
import MarkerIndex.Proofs.ModuleTree
/-!
A name that a module has through its only glob import. The module that is imported offers what it
declares and what its imports bind by name. It does not pass on what it has through glob imports
itself, and what it declares comes before an import that hides the declaration inside of it.
-/

namespace MarkerIndex

namespace SymbolTable

variable {t : SymbolTable} {m base : ItemPath} {name : String} {target : ImportTarget}

/-- A resolution that leads to something: a declared item, or a registered one of another crate. -/
def Known (t : SymbolTable) (found : Resolution) : Prop :=
  (found.origin = .local ∧ t.contains found.path = true) ∨
    (found.origin = .external ∧ found.path ∈ t.external)

instance (found : Resolution) : Decidable (t.Known found) :=
  inferInstanceAs (Decidable (_ ∨ _))

/-- What the name means inside `base` is what `base` offers under it: a declaration that no import
hides, or else an import. -/
def Offers (t : SymbolTable) (base : ItemPath) (name : String) : Prop :=
  (t.declares base name = true ∧ t.resolve base [name] false = ⟨base.join name, .local⟩) ∨
    (t.declares base name = false ∧ (t.import? base name).isSome = true)

instance : Decidable (t.Offers base name) :=
  inferInstanceAs (Decidable (_ ∨ _))

theorem not_known_of_unscoped {found : Resolution} (h : found.origin = .unscoped) :
    ¬ t.Known found := by
  simp [Known, h]

/-- Through the glob import of a module, a name means what it means in that module exactly if the
module offers it. -/
theorem resolve_eq_resolve_base_iff (hname : name ∉ ItemPath.pathWords)
    (hglobs : t.globs m = [target]) (hbase : t.inner.globBase m target = ⟨base, .local⟩)
    (hmodule : t.isModule base = true) (hdeclared : t.declares m name = false)
    (himport : t.import? m name = none) (hknown : t.Known (t.resolve base [name] false)) :
    t.resolve m [name] false = t.resolve base [name] false ↔ t.Offers base name := by
  have hsource := Level.globSource?_of_globs_eq hglobs hbase name
  cases hitem : t.declares base name with
  | true =>
      have hresolve : t.resolve m [name] false = ⟨base.join name, .local⟩ := by
        rw [resolve_name hname,
          Level.resolveName_globbed himport hdeclared rfl (by simpa [hitem] using hsource),
          Level.descendFrom_declared hmodule hitem, Level.descendFrom_nil]
      rw [hresolve, Offers, hitem]
      simp only [true_and, Bool.true_eq_false, false_and, or_false]
      exact eq_comm
  | false =>
      cases hbound : t.import? base name with
      | some bound =>
          have hresolve : t.resolve m [name] false = t.resolve base [name] false := by
            rw [resolve_name hname,
              Level.resolveName_globbed himport hdeclared rfl (by simpa [hbound] using hsource),
              Level.descendFrom_imported hitem hbound, resolve_bound hname hbound]
          simp [Offers, hitem, hbound, hresolve]
      | none =>
          have hresolve : t.resolve m [name] false = ⟨⟨[name]⟩, .unscoped⟩ := by
            rw [resolve_name hname]
            exact Level.resolveName_unknown himport hdeclared rfl
              (by simpa [hitem, hbound] using hsource)
              (Level.externalGlob?_of_globs_eq hglobs hbase [name])
          have hne : t.resolve m [name] false ≠ t.resolve base [name] false := by
            intro heq
            rw [← heq, hresolve] at hknown
            exact not_known_of_unscoped rfl hknown
          simp [Offers, hitem, hbound, hne]

/-- A module that is imported as a whole and has a name from a third one. -/
def passedOn : List Item :=
  [.submodule "a" [] (some [.declaration "X"]),
   .submodule "b" [] (some [.use false (.path "crate" (.path "a" (.name "X")))]),
   .submodule "c" [] (some [.use false (.path "crate" (.path "b" .glob))])]

theorem resolve_through_glob_in_passedOn :
    ((Corpus.ofItems passedOn).table []).resolve ⟨["crate", "c"]⟩ ["X"] false =
      ((Corpus.ofItems passedOn).table []).resolve ⟨["crate", "b"]⟩ ["X"] false := by
  have hglobs : ((Corpus.ofItems passedOn).table []).globs ⟨["crate", "c"]⟩ =
      [⟨["crate", "b"], false⟩] := by decide +kernel
  have hoffers : ((Corpus.ofItems passedOn).table []).Offers ⟨["crate", "b"]⟩ "X" := by
    decide +kernel
  exact (resolve_eq_resolve_base_iff (by decide) hglobs (by decide +kernel) (by decide +kernel)
    (by decide +kernel) (by decide +kernel) (by decide +kernel)).mpr hoffers

/-- The same, with glob imports in both places. -/
def passedOnTwice : List Item :=
  [.submodule "a" [] (some [.declaration "X"]),
   .submodule "b" [] (some [.use false (.path "crate" (.path "a" .glob))]),
   .submodule "c" [] (some [.use false (.path "crate" (.path "b" .glob))])]

theorem resolve_lost_in_passedOnTwice :
    (Corpus.ofItems passedOnTwice).Loaded ∧
      ((Corpus.ofItems passedOnTwice).table []).globs ⟨["crate", "c"]⟩ =
        [⟨["crate", "b"], false⟩] ∧
      ((Corpus.ofItems passedOnTwice).table []).resolve ⟨["crate", "c"]⟩ ["crate", "b"] false =
        ⟨⟨["crate", "b"]⟩, .local⟩ ∧
      ((Corpus.ofItems passedOnTwice).table []).resolve ⟨["crate", "b"]⟩ ["X"] false =
        ⟨⟨["crate", "a", "X"]⟩, .local⟩ ∧
      ((Corpus.ofItems passedOnTwice).table []).contains ⟨["crate", "a", "X"]⟩ = true ∧
      ((Corpus.ofItems passedOnTwice).table []).resolve ⟨["crate", "c"]⟩ ["X"] false =
        ⟨⟨["X"]⟩, .unscoped⟩ :=
  ⟨Corpus.loaded_ofItems passedOnTwice (by decide +kernel), by decide +kernel⟩

end SymbolTable

end MarkerIndex
