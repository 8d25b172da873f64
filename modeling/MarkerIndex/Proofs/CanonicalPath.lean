import MarkerIndex.Proofs.QualifiedName
/-!
Paths of declared items, spelled in full from the root of the crate. Every step of such a path is a
declaration, and on the way down from the root declarations come before imports and glob imports. So
the path means itself in every module, and what a resolution has led to is found again under the
path that it has there.
-/

namespace MarkerIndex

namespace SymbolTable

variable {t : SymbolTable} {base p : ItemPath}

/-- All that is contained lies below the root of the crate. -/
theorem IsTree.exists_names_of_contains (tree : t.IsTree) (h : t.contains p = true) :
    ∃ names, p = ItemPath.crateRoot.extend names := by
  have hrooted {m : ItemPath} (hm : t.isModule m = true) :
      ∃ names, m = ItemPath.crateRoot.extend names := by
    obtain ⟨names, hsegments, -⟩ := (tree.rooted hm).descendFrom_crateRoot Level.last
    exact ⟨names, congrArg ItemPath.mk hsegments⟩
  cases hmodule : t.isModule p with
  | true => exact hrooted hmodule
  | false =>
      obtain ⟨segments⟩ := p
      cases segments using List.reverseRecOn with
      | nil => simp [contains, hmodule, ItemPath.parent?] at h
      | append_singleton above name =>
          have hitem : t.hasItem ⟨above⟩ name = true := hasItem_of_contains h hmodule
          obtain ⟨names, hnames⟩ := hrooted (isModule_of_hasItem hitem)
          refine ⟨names ++ [name], ?_⟩
          rw [ItemPath.extend_concat, ← hnames]
          rfl

/-- Where a path below a module is contained, a walk goes down to it by declarations alone. -/
theorem IsTree.descendFrom_of_contains (tree : t.IsTree) (lower : Level)
    (hbase : base.segments ≠ [])
    (names : List String) (h : t.contains (base.extend names) = true) :
    lower.descendFrom t base names = ⟨base.extend names, .local⟩ := by
  induction names generalizing base with
  | nil => rw [Level.descendFrom_nil, ItemPath.extend_nil]
  | cons name names ih =>
      have hdeclared := tree.declares_of_contains hbase h
      have hmodule := tree.isModule_of_declares hbase hdeclared
      rw [ItemPath.extend_cons] at h ⊢
      rw [Level.descendFrom_declared hmodule hdeclared]
      exact ih (by simp) h

/-- In every module, the full path of what is declared means just that. -/
theorem IsTree.resolve_of_contains (tree : t.IsTree) (h : t.contains p = true) (m : ItemPath) :
    t.resolve m p.segments false = ⟨p, .local⟩ := by
  obtain ⟨names, rfl⟩ := tree.exists_names_of_contains h
  exact tree.descendFrom_of_contains t.inner (by simp [ItemPath.crateRoot]) names h

/-- The modules of a crate are closed under going up to the root. The full path of a declared item
or module means itself everywhere, whatever is imported under the names on the way. So where a
resolution names something declared, resolving its path gives the same path again, and the same
resolution if it was one into the crate. -/
theorem resolve_contained {c : Corpus} (loaded : c.Loaded) (plain : c.NamesModulesPlainly)
    (external : List ItemPath) :
    ((c.table external).isModule .crateRoot = true ∧ ∀ m names, m.segments ≠ [] →
      (c.table external).isModule (m.extend names) = true → (c.table external).isModule m = true) ∧
    (∀ p, (c.table external).contains p = true → ∀ m,
      (c.table external).resolve m p.segments false = ⟨p, .local⟩) ∧
    ∀ m segments leadingColon found, (c.table external).resolve m segments leadingColon = found →
      (c.table external).contains found.path = true → ∀ other,
      ((c.table external).resolve other found.path.segments false).path = found.path ∧
        (found.origin = .local →
          (c.table external).resolve other found.path.segments false = found) := by
  have tree := Corpus.isTree_table loaded plain external
  refine ⟨⟨tree.root, fun m names hm => tree.isModule_of_extend hm names⟩,
    fun p => tree.resolve_of_contains, ?_⟩
  intro m segments leadingColon found _ hcontains other
  have hagain := tree.resolve_of_contains hcontains other
  rw [hagain]
  refine ⟨rfl, fun hlocal => ?_⟩
  rw [← hlocal]

/-- A module whose name, and the name of an item in it, are bound to items of another crate too. The
item is also declared in a module that is imported as a whole. -/
def crowded : List Item :=
  [.use false (.path "dep" (.name "a")),
   .submodule "a" [] (some [.declaration "X", .use false (.path "dep" (.name "X")),
    .use false (.path "crate" (.path "b" .glob))]),
   .submodule "b" [] (some [.declaration "X"])]

theorem resolve_contained_in_crowded :
    ((Corpus.ofItems crowded).table []).contains ⟨["crate", "a", "X"]⟩ = true ∧
      ((Corpus.ofItems crowded).table []).resolve .crateRoot ["a", "X"] false =
        ⟨⟨["dep", "a", "X"]⟩, .external⟩ ∧
      ∀ m, ((Corpus.ofItems crowded).table []).resolve m ["crate", "a", "X"] false =
        ⟨⟨["crate", "a", "X"]⟩, .local⟩ := by
  have hcontains : ((Corpus.ofItems crowded).table []).contains ⟨["crate", "a", "X"]⟩ = true := by
    decide +kernel
  obtain ⟨-, hfixed, -⟩ := resolve_contained (Corpus.loaded_ofItems crowded (by decide +kernel))
    (by decide +kernel) []
  exact ⟨hcontains, by decide +kernel, hfixed ⟨["crate", "a", "X"]⟩ hcontains⟩

end SymbolTable

end MarkerIndex
