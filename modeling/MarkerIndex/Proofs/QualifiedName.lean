import MarkerIndex.Proofs.Lookup
import MarkerIndex.Proofs.ModuleTree
/-!
A name alone, the name behind `self` and the name behind the full path of its module. The first asks
for an import before a declaration, the other two ask for a declaration first. They agree where no
name is both, and where the import of a declared name leads back to the declaration.
-/

namespace MarkerIndex

namespace SymbolTable

variable {t : SymbolTable} {m : ItemPath} {name : String}

/-- One import less than a resolution may follow is enough for every path below `p`. A binding that
leads to `p` takes that one import. -/
def SettledBelow (t : SymbolTable) (p : ItemPath) : Prop :=
  ∀ names, t.inner.descend p names = t.inner.descendFrom t p names

/-- If the name is both declared and bound in `m`, the binding leads to the declaration, and on from
there as far as the declaration itself. -/
def OneMeaning (t : SymbolTable) (m : ItemPath) (name : String) : Prop :=
  t.declares m name = true → (t.import? m name).isSome = true →
    t.resolve m [name] false = ⟨m.join name, .local⟩ ∧ t.SettledBelow (m.join name)

theorem resolve_self_declared (hm : t.isModule m = true) (hdeclared : t.declares m name = true)
    (rest : List String) :
    t.resolve m ("self" :: name :: rest) false = t.inner.descendFrom t (m.join name) rest := by
  rw [resolve_self, Level.descendFrom_declared hm hdeclared]

/-- With an import and a declaration of one name, the bare name means what the import leads to and
the name behind `self` means the declaration. -/
theorem resolve_eq_resolve_self_iff_of_both (hname : name ∉ ItemPath.pathWords)
    {target : ImportTarget} (himport : t.import? m name = some target)
    (hdeclared : t.declares m name = true) :
    (∀ rest, t.resolve m (name :: rest) false = t.resolve m ("self" :: name :: rest) false) ↔
      t.resolve m [name] false = ⟨m.join name, .local⟩ ∧ t.SettledBelow (m.join name) := by
  have hself := resolve_self_declared (isModule_of_import? himport) hdeclared
  have hbare := resolve_bound hname himport
  have hhead : t.resolve m [name] false = t.inner.followImport m name target := by
    rw [hbare, Level.append_nil]
  constructor
  · intro hagree
    have hfirst : t.resolve m [name] false = ⟨m.join name, .local⟩ := by
      rw [hagree, hself, Level.descendFrom_nil]
    refine ⟨hfirst, ?_⟩
    intro names
    cases names with
    | nil => rw [inner_descend, Level.descendFrom_nil, Level.descendFrom_nil]
    | cons next names =>
        have hnext := hagree (next :: names)
        rw [hbare, ← hhead, hfirst, Level.append_local (by simp), hself] at hnext
        exact hnext
  · rintro ⟨hfirst, hsettled⟩ rest
    rw [hbare, ← hhead, hfirst, hself]
    cases rest with
    | nil => rw [Level.append_nil, Level.descendFrom_nil]
    | cons next rest =>
        rw [Level.append_local (by simp)]
        exact hsettled (next :: rest)

theorem resolve_eq_resolve_self_iff (hname : name ∉ ItemPath.pathWords)
    (hn : t.declares m name = true ∨ (t.import? m name).isSome = true) :
    (∀ rest, t.resolve m (name :: rest) false = t.resolve m ("self" :: name :: rest) false) ↔
      t.OneMeaning m name := by
  unfold OneMeaning
  cases himport : t.import? m name with
  | none =>
      have hdeclared : t.declares m name = true := by simpa [himport] using hn
      have hagree (rest : List String) :
          t.resolve m (name :: rest) false = t.resolve m ("self" :: name :: rest) false := by
        rw [resolve_name hname, Level.resolveName_declared himport hdeclared, resolve_self]
      simpa using hagree
  | some target =>
      by_cases hdeclared : t.declares m name = true
      · simpa [hdeclared] using resolve_eq_resolve_self_iff_of_both hname himport hdeclared
      · have hagree (rest : List String) :
            t.resolve m (name :: rest) false = t.resolve m ("self" :: name :: rest) false := by
          rw [resolve_bound hname himport, resolve_self,
            Level.descendFrom_imported (by simpa using hdeclared) himport]
        simpa [hdeclared] using hagree

/-- A walk from the root comes by every module on the way to a rooted one. -/
theorem Rooted.descendFrom_crateRoot (rooted : t.Rooted m) (lower : Level) :
    ∃ names, m.segments = "crate" :: names ∧ ∀ rest,
      lower.descendFrom t .crateRoot (names ++ rest) = lower.descendFrom t m rest := by
  induction rooted with
  | root _ => exact ⟨[], rfl, fun _ => rfl⟩
  | @child m name rooted hchild ih =>
      obtain ⟨names, hsegments, hwalk⟩ := ih
      refine ⟨names ++ [name], by simp [ItemPath.join, hsegments], ?_⟩
      intro rest
      have hdeclared : t.declares m name = true := declares_iff.mpr (Or.inr hchild)
      calc lower.descendFrom t .crateRoot (names ++ [name] ++ rest)
          = lower.descendFrom t m (name :: rest) := by
            rw [List.append_assoc, List.singleton_append, hwalk]
        _ = lower.descendFrom t (m.join name) rest :=
            Level.descendFrom_declared rooted.isModule hdeclared

/-- From everywhere, the full path of a module stands for `self` in that module. -/
theorem Rooted.resolve_absolute (rooted : t.Rooted m) (other : ItemPath) (rest : List String) :
    t.resolve other (m.segments ++ rest) false = t.resolve m ("self" :: rest) false := by
  obtain ⟨names, hsegments, hwalk⟩ := rooted.descendFrom_crateRoot t.inner
  rw [hsegments, List.cons_append, resolve_crate, hwalk, resolve_self]

/-- The three spellings of a name that is declared or bound in `m`. The bare one agrees with the one
behind `self`, whatever follows, exactly if the name has one meaning. The full path agrees with the
one behind `self` in every rooted module, which all modules are where none has a raw name. -/
theorem spellings_agree (hname : name ∉ ItemPath.pathWords)
    (hn : t.declares m name = true ∨ (t.import? m name).isSome = true) :
    ((∀ rest, t.resolve m (name :: rest) false = t.resolve m ("self" :: name :: rest) false) ↔
        t.OneMeaning m name) ∧
      (t.Rooted m → ∀ other rest,
        t.resolve other (m.segments ++ name :: rest) false =
          t.resolve m ("self" :: name :: rest) false) := by
  refine ⟨resolve_eq_resolve_self_iff hname hn, ?_⟩
  intro rooted other rest
  exact rooted.resolve_absolute other (name :: rest)

/-- A module that takes a name from another one under a name of its own. -/
def renamed : List Item :=
  [.submodule "a" [] (some [.declaration "X"]),
   .submodule "b" [] (some [.use false (.path "crate" (.path "a" (.rename "X" "Y")))])]

theorem spellings_agree_in_renamed :
    ((Corpus.ofItems renamed).table []).Rooted ⟨["crate", "b"]⟩ ∧ ∀ other rest,
      ((Corpus.ofItems renamed).table []).resolve ⟨["crate", "b"]⟩ ("Y" :: rest) false =
        ((Corpus.ofItems renamed).table []).resolve other
          ("crate" :: "b" :: "Y" :: rest) false := by
  have tree := Corpus.isTree_table (Corpus.loaded_ofItems renamed (by decide +kernel))
    (by decide +kernel) []
  have rooted := tree.rooted (m := ⟨["crate", "b"]⟩) (by decide +kernel)
  obtain ⟨hbare, habsolute⟩ := spellings_agree (t := (Corpus.ofItems renamed).table [])
    (m := ⟨["crate", "b"]⟩) (show "Y" ∉ ItemPath.pathWords by decide) (by decide +kernel)
  refine ⟨rooted, ?_⟩
  intro other rest
  have hagree := hbare.mpr (fun hdeclared => absurd hdeclared (by decide +kernel))
  exact (hagree rest).trans (habsolute rooted other rest).symm

/-- A function beside the import of a name that is spelled like it, as an attribute and a function
may be. -/
def twoMarks : List Item :=
  [.submodule "m" [] (some [.use false (.path "dep" (.name "mark")), .function ⟨[], "mark", 1⟩])]

theorem spellings_disagree_in_twoMarks :
    (Corpus.ofItems twoMarks).Loaded ∧ (Corpus.ofItems twoMarks).NamesModulesPlainly ∧
      ((Corpus.ofItems twoMarks).table []).declares ⟨["crate", "m"]⟩ "mark" = true ∧
      ((Corpus.ofItems twoMarks).table []).resolve ⟨["crate", "m"]⟩ ["mark"] false =
        ⟨⟨["dep", "mark"]⟩, .external⟩ ∧
      ((Corpus.ofItems twoMarks).table []).resolve ⟨["crate", "m"]⟩ ["self", "mark"] false =
        ⟨⟨["crate", "m", "mark"]⟩, .local⟩ ∧
      ((Corpus.ofItems twoMarks).table []).resolve .crateRoot ["crate", "m", "mark"] false =
        ⟨⟨["crate", "m", "mark"]⟩, .local⟩ :=
  ⟨Corpus.loaded_ofItems twoMarks (by decide +kernel), by decide +kernel⟩

end SymbolTable

end MarkerIndex
