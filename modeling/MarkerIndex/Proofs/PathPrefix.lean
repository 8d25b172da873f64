import MarkerIndex.Proofs.Lookup
import MarkerIndex.Proofs.ModuleTree
/-!
Paths that begin with `self` and `super`. Words of going up in front lead to the module so many
levels up, and the root of a crate is above itself. Behind `self` the same words are taken for
names, so that a path which goes up from there names nothing, unless something in the crate goes by
such a name.
-/

namespace MarkerIndex

namespace ItemPath

/-- The module so many levels up, where the root of a crate is what it lies in. -/
def up : Nat → ItemPath → ItemPath
  | 0, m => m
  | k + 1, m => up k (m.parent?.getD crateRoot)

/-- The words of going so many levels up. -/
def supers (k : Nat) : List String :=
  List.replicate k "super"

theorem supers_succ (k : Nat) (tail : List String) :
    supers (k + 1) ++ tail = "super" :: (supers k ++ tail) :=
  rfl

end ItemPath

open ItemPath (supers)

namespace Level

variable {t : SymbolTable} {lower : Level} {m : ItemPath} {tail : List String}

theorem climb_supers (k : Nat) (m : ItemPath) (htail : tail.head? ≠ some "super") :
    climb m (supers k ++ tail) = (m.up k, tail) := by
  induction k generalizing m with
  | zero =>
      cases tail with
      | nil => rfl
      | cons first rest =>
          have hfirst : first ≠ "super" := by simpa using htail
          simp [supers, climb, hfirst, ItemPath.up]
  | succ k ih => rw [ItemPath.supers_succ, climb, if_pos rfl, ih, ItemPath.up]

/-- Words of going up lead to the module above, at every level but the last and in every import. -/
theorem resolve_supers {k : Nat} (hk : 0 < k) (htail : tail.head? ≠ some "super")
    (skip skip' : Option String) (throughGlobs throughGlobs' : Bool) :
    (lower.above t).resolve ⟨m, ⟨supers k ++ tail, false⟩, skip, throughGlobs⟩ =
      (lower.above t).resolve ⟨m.up k, ⟨"self" :: tail, false⟩, skip', throughGlobs'⟩ := by
  obtain ⟨k, rfl⟩ := Nat.exists_eq_succ_of_ne_zero (Nat.ne_of_gt hk)
  have hclimb := climb_supers (k + 1) m htail
  rw [ItemPath.supers_succ] at hclimb ⊢
  simp [above, resolveFrom, hclimb]

theorem followImport_supers {k : Nat} (hk : 0 < k) (htail : tail.head? ≠ some "super")
    (name name' : String) :
    (lower.above t).followImport m name ⟨supers k ++ tail, false⟩ =
      (lower.above t).followImport (m.up k) name' ⟨"self" :: tail, false⟩ := by
  simp only [followImport, resolve_supers hk htail (some name) (some name') true true]

end Level

/-- What the fact says is that something goes by the name. -/
def Fact.gives (name : String) : Fact → Bool
  | item other => other = name
  | binding other _ => other = name
  | _ => false

namespace SymbolTable

/-- Nothing in the crate goes by the word: no module, no item and no import. -/
def NeverNames (t : SymbolTable) (word : String) : Prop :=
  ∀ fact ∈ t.facts, word ∉ fact.1.segments ∧ fact.2.gives word = false

instance (t : SymbolTable) (word : String) : Decidable (t.NeverNames word) :=
  inferInstanceAs (Decidable (∀ fact ∈ t.facts, word ∉ fact.1.segments ∧ fact.2.gives word = false))

namespace NeverNames

variable {t : SymbolTable} {lower : Level} {m p : ItemPath} {word : String} {rest : List String}

theorem not_isModule (h : t.NeverNames word) (hp : word ∈ p.segments) : t.isModule p = false := by
  by_contra hmodule
  obtain ⟨fact, member⟩ := isModule_iff.mp (by simpa using hmodule)
  exact (h _ member).1 hp

theorem not_hasItem (h : t.NeverNames word) (m : ItemPath) : t.hasItem m word = false := by
  by_contra hitem
  have member : (m, .item word) ∈ t.facts :=
    List.contains_iff_mem.mp (by simpa [hasItem] using hitem)
  simpa [Fact.gives] using (h _ member).2

theorem not_declares (h : t.NeverNames word) (m : ItemPath) : t.declares m word = false := by
  rw [declares, h.not_hasItem, h.not_isModule (by simp [ItemPath.join])]
  rfl

theorem not_import (h : t.NeverNames word) (m : ItemPath) : t.import? m word = none := by
  by_contra himport
  obtain ⟨target, htarget⟩ := Option.ne_none_iff_exists'.mp himport
  simpa [Fact.gives] using (h _ (mem_facts_of_import? htarget)).2

theorem not_globSource (h : t.NeverNames word) (m : ItemPath) :
    lower.globSource? t m word = none := by
  simp [Level.globSource?, h.not_declares, h.not_import]

/-- A path with the word in it is no path of the crate. -/
theorem not_contains (h : t.NeverNames word) (hp : word ∈ p.segments) : t.contains p = false := by
  by_contra hcontains
  obtain ⟨segments⟩ := p
  cases segments using List.reverseRecOn with
  | nil => cases hp
  | append_singleton above name =>
      have hknown : t.contains ⟨above ++ [name]⟩ = true := by simpa using hcontains
      have hitem : t.hasItem ⟨above⟩ name = true :=
        hasItem_of_contains (m := ⟨above⟩) hknown (h.not_isModule hp)
      rcases List.mem_append.mp hp with habove | hlast
      · simpa [h.not_isModule (p := ⟨above⟩) habove] using isModule_of_hasItem hitem
      · obtain rfl := List.mem_singleton.mp hlast
        simp [h.not_hasItem] at hitem

/-- A walk stops where it comes to the word. -/
theorem descendFrom (h : t.NeverNames word) (m : ItemPath) (rest : List String) :
    lower.descendFrom t m (word :: rest) = ⟨m.extend (word :: rest), .local⟩ := by
  cases hmodule : t.isModule m with
  | false => exact Level.descendFrom_outside hmodule _
  | true =>
      rw [Level.descendFrom_unbound hmodule (h.not_declares m) (h.not_import m), h.not_globSource m]

end NeverNames

variable {t : SymbolTable} {m : ItemPath} {k : Nat} {tail : List String}

/-- Paths that begin with words of going up mean what the rest means in the module above, and what
is bound to one by an import leads where an import of the rest would lead in that module. With
`self` in front, such a path stops in its module, and names nothing. So the two agree just where the
path without `self` leads to that very place. -/
theorem resolve_super_prefixes (hk : 0 < k) (htail : tail.head? ≠ some "super") :
    t.resolve m (supers k ++ tail) false = t.resolve (m.up k) ("self" :: tail) false ∧
    (∀ name name' rest, name ∉ ItemPath.pathWords →
      t.import? m name = some ⟨supers k ++ tail, false⟩ →
      t.resolve m (name :: rest) false =
        t.inner.append (t.inner.followImport (m.up k) name' ⟨"self" :: tail, false⟩) rest) ∧
    (t.NeverNames "super" →
      t.resolve m ("self" :: supers k ++ tail) false = ⟨m.extend (supers k ++ tail), .local⟩ ∧
      t.contains (m.extend (supers k ++ tail)) = false ∧
      (t.resolve m ("self" :: supers k ++ tail) false = t.resolve m (supers k ++ tail) false ↔
        t.resolve (m.up k) ("self" :: tail) false = ⟨m.extend (supers k ++ tail), .local⟩) ∧
      ∀ name rest, name ∉ ItemPath.pathWords →
      t.import? m name = some ⟨"self" :: supers k ++ tail, false⟩ →
        t.resolve m (name :: rest) false = ⟨m.extend (supers k ++ tail ++ rest), .local⟩) := by
  have hup : t.resolve m (supers k ++ tail) false = t.resolve (m.up k) ("self" :: tail) false :=
    Level.resolve_supers hk htail none none true true
  refine ⟨hup, ?_, fun hnever => ?_⟩
  · intro name name' rest hname himport
    rw [resolve_bound hname himport]
    exact congrArg (t.inner.append · rest) (Level.followImport_supers hk htail name name')
  · obtain ⟨k, rfl⟩ := Nat.exists_eq_succ_of_ne_zero (Nat.ne_of_gt hk)
    have hword : "super" ∈ (m.extend (supers (k + 1) ++ tail)).segments := by
      simp [ItemPath.extend, supers, List.replicate_succ]
    have hstop : ∀ level : Level, level.descendFrom t m (supers (k + 1) ++ tail) =
        ⟨m.extend (supers (k + 1) ++ tail), .local⟩ :=
          fun level => hnever.descendFrom m (supers k ++ tail)
    have hself : t.resolve m ("self" :: supers (k + 1) ++ tail) false =
        ⟨m.extend (supers (k + 1) ++ tail), .local⟩ := hstop t.inner
    refine ⟨hself, hnever.not_contains hword, ?_, ?_⟩
    · rw [hself, hup]
      exact eq_comm
    · intro name rest hname himport
      have hfollow : t.inner.followImport m name ⟨"self" :: supers (k + 1) ++ tail, false⟩ =
          ⟨m.extend (supers (k + 1) ++ tail), .local⟩ := by
        have hread :
            t.inner.resolve ⟨m, ⟨"self" :: supers (k + 1) ++ tail, false⟩, some name, true⟩ =
            ⟨m.extend (supers (k + 1) ++ tail), .local⟩ :=
              hstop (Level.ofDepth t (Level.depthLimit - 2))
        rw [Level.followImport, hread]
      rw [resolve_bound hname himport, hfollow]
      cases rest with
      | nil => simp
      | cons next rest =>
          rw [Level.append_local (by simp), inner_descend,
            Level.descendFrom_outside (hnever.not_isModule hword)]
          simp [ItemPath.extend]

/-- An item of the root, and imports of it from the root and from two levels down. -/
def importedFromBelow : List Item :=
  [.declaration "T", .use false (.path "self" (.rename "T" "U")),
   .submodule "a" [] (some [.submodule "b" []
    (some [.use false (.path "super" (.path "super" (.rename "T" "V")))])])]

theorem resolve_super_prefixes_importedFromBelow :
    ((Corpus.ofItems importedFromBelow).table []).NeverNames "super" ∧
      ((Corpus.ofItems importedFromBelow).table []).resolve ⟨["crate", "a", "b"]⟩ ["super",
        "super", "T"] false =
        ((Corpus.ofItems importedFromBelow).table []).resolve .crateRoot ["self", "T"] false ∧
      (∀ rest, ((Corpus.ofItems importedFromBelow).table []).resolve ⟨["crate", "a", "b"]⟩
        ("V" :: rest) false =
        ((Corpus.ofItems importedFromBelow).table []).resolve .crateRoot ("U" :: rest) false) ∧
      ((Corpus.ofItems importedFromBelow).table []).resolve ⟨["crate", "a", "b"]⟩
        ["self", "super", "super", "T"] false =
          ⟨⟨["crate", "a", "b", "super", "super", "T"]⟩, .local⟩ := by
  have hnever : ((Corpus.ofItems importedFromBelow).table []).NeverNames "super" := by
    decide +kernel
  obtain ⟨hup, himports, hself⟩ :=
    @resolve_super_prefixes ((Corpus.ofItems importedFromBelow).table [])
    ⟨["crate", "a", "b"]⟩ 2 ["T"] (by decide) (by decide)
  have hbound : ((Corpus.ofItems importedFromBelow).table []).import? .crateRoot "U" =
      some ⟨["self", "T"], false⟩ := by decide +kernel
  refine ⟨hnever, hup, fun rest => ?_, (hself hnever).1⟩
  rw [resolve_bound (by decide) hbound]
  exact himports "V" "U" rest (by decide) (by decide +kernel)

/-- An item of the root, and two imports of it in a module, by both spellings. -/
def importedTwice : List Item :=
  [.declaration "X", .submodule "a" [] (some [.use false (.path "super" (.rename "X" "Y")),
    .use false (.path "self" (.path "super" (.rename "X" "Z")))])]

theorem resolve_self_super_in_importedTwice :
    (Corpus.ofItems importedTwice).Loaded ∧ (Corpus.ofItems importedTwice).NamesModulesPlainly ∧
      ((Corpus.ofItems importedTwice).table []).isModule ⟨["crate", "a"]⟩ = true ∧
      ((Corpus.ofItems importedTwice).table []).resolve .crateRoot ["self", "X"] false =
        ⟨⟨["crate", "X"]⟩, .local⟩ ∧
      ((Corpus.ofItems importedTwice).table []).resolve ⟨["crate", "a"]⟩ ["super", "X"] false =
        ⟨⟨["crate", "X"]⟩, .local⟩ ∧
      ((Corpus.ofItems importedTwice).table []).resolve ⟨["crate", "a"]⟩ ["self",
        "super", "X"] false =
        ⟨⟨["crate", "a", "super", "X"]⟩, .local⟩ ∧
      ((Corpus.ofItems importedTwice).table []).resolve ⟨["crate", "a"]⟩ ["Y"] false =
        ⟨⟨["crate", "X"]⟩, .local⟩ ∧
      ((Corpus.ofItems importedTwice).table []).resolve ⟨["crate", "a"]⟩ ["Z"] false =
        ⟨⟨["crate", "a", "super", "X"]⟩, .local⟩ :=
  ⟨Corpus.loaded_ofItems importedTwice (by decide +kernel), by decide +kernel⟩

end SymbolTable

end MarkerIndex
