import MarkerIndex.Proofs.Reader
/-!
The words by which a crate finds its modules, what it imports, what it calls and what its functions
are marked with. Whatever the text of a file, the grammar lets only names and the keywords of paths
stand there, so that such a word has the characters of a name and spells a single part of a path.
One keyword more may stand for the whole path of an attribute.
-/

namespace MarkerIndex

/-- The word of a binding, unless the binding is an underscore. -/
def bindingWords (name : String) : List String :=
  if name = "_" then [] else [name]

mutual

/-- The words of an import that name what it leads to, and those that it binds. -/
def UseTree.words : UseTree → List String
  | .path word tree => word :: UseTree.words tree
  | .name word => [word]
  | .rename word as_ => word :: bindingWords as_
  | .glob => []
  | .group trees => UseTree.wordsAll trees

def UseTree.wordsAll : List UseTree → List String
  | [] => []
  | tree :: trees => UseTree.words tree ++ UseTree.wordsAll trees

end

/-- The words of the path of an attribute, unless it is marked as unsafe. -/
def Attribute.words (a : Attribute) : List String :=
  if a.path.segments = ["unsafe"] then [] else a.path.segments

def Function.words (f : Function) : List String :=
  f.attributes.flatMap Attribute.words

mutual

/-- The words of an item that name modules, other crates, what is imported, what is called and what
functions are marked with, with those of modules that are written in place. -/
def Item.words : Item → List String
  | .use _ tree => tree.words
  | .externalCrate name rename => name :: (rename.elim [] bindingWords)
  | .submodule name _ (some nested) => name :: Item.wordsAll nested
  | .submodule name _ none => [name]
  | .function f => f.words
  | .implementation _ functions => functions.flatMap Function.words
  | .contract _ functions => functions.flatMap Function.words
  | .invocation path _ => path.segments
  | _ => []

def Item.wordsAll : List Item → List String
  | [] => []
  | item :: items => item.words ++ Item.wordsAll items

end

namespace Grammar

/-- Keywords that may be a segment of a path. -/
def segmentWords : List String := ["crate", "self", "super", "Self", "try"]

/-- The word may be a segment of a path. -/
def IsSegment (word : String) : Prop :=
  isName word = true ∨ word ∈ segmentWords

instance (word : String) : Decidable (IsSegment word) :=
  inferInstanceAs (Decidable (_ ∨ _))

/-- All words may be segments of a path. -/
def AllSegments (words : List String) : Prop :=
  ∀ word ∈ words, IsSegment word

end Grammar

open Grammar (AllSegments)

/-- A branch of an import, if there is one, names things by words of paths. -/
def UseTree.SpelledIfAny (tree : Option UseTree) : Prop :=
  ∀ t ∈ tree, AllSegments t.words

/-- An item names modules, what it imports, what it calls and what its functions are marked with by
words of paths. -/
def Item.Spelled (item : Item) : Prop :=
  AllSegments item.words

def Item.AllSpelled (items : List Item) : Prop :=
  AllSegments (Item.wordsAll items)

/-- Attributes mark by words of paths. -/
def Attribute.AllSpelled (attributes : List Attribute) : Prop :=
  ∀ a ∈ attributes, AllSegments a.words

theorem Function.allSegments_words {f : Function} (h : Attribute.AllSpelled f.attributes) :
    AllSegments f.words :=
  List.forall_mem_flatMap.mpr h

theorem Function.allSegments_flatMap {functions : List Function}
    (h : ∀ f ∈ functions, Attribute.AllSpelled f.attributes) :
    AllSegments (functions.flatMap Function.words) :=
  List.forall_mem_flatMap.mpr fun f hf => allSegments_words (h f hf)

theorem UseTree.allSegments_wordsAll {trees : List UseTree}
    (h : ∀ tree ∈ trees, AllSegments tree.words) : AllSegments (UseTree.wordsAll trees) := by
  induction trees with
  | nil => simp [AllSegments, UseTree.wordsAll]
  | cons tree trees ih =>
      obtain ⟨htree, htrees⟩ := List.forall_mem_cons.mp h
      rw [UseTree.wordsAll]
      exact List.forall_mem_append.mpr ⟨htree, ih htrees⟩

theorem Item.wordsAll_eq_flatMap (items : List Item) :
    Item.wordsAll items = items.flatMap Item.words := by
  induction items with
  | nil => rfl
  | cons item items ih => rw [Item.wordsAll, ih, List.flatMap_cons]

theorem Item.allSpelled_iff {items : List Item} :
    Item.AllSpelled items ↔ ∀ item ∈ items, item.Spelled := by
  rw [AllSpelled, AllSegments, Item.wordsAll_eq_flatMap]
  exact List.forall_mem_flatMap

theorem Item.spelled_submodule_iff {name : String} {attributes : List Attribute}
    {content : Option (List Item)} : (submodule name attributes content).Spelled ↔
      Grammar.IsSegment name ∧ ∀ nested, content = some nested → AllSpelled nested := by
  cases content <;> simp [Spelled, AllSpelled, AllSegments, words]

/-- What names nothing by a path has no words to spell. -/
theorem Item.spelled_of_words {item : Item} (h : item.words = []) : item.Spelled := by
  simp [Spelled, AllSegments, h]

namespace Grammar

theorem isSegment_of_atName {pos : Position} {word : String} {ts : List TokenTree}
    (h : atName (.leaf pos (.word word) :: ts) = true) : IsSegment word :=
  Or.inl h

theorem mem_of_any {words : List String} {pos : Position} {word : String} {ts : List TokenTree}
    (h : words.any (atKeyword · (.leaf pos (.word word) :: ts)) = true) : word ∈ words := by
  obtain ⟨keyword, member, hsame⟩ := List.any_eq_true.mp h
  obtain rfl : word = keyword := by simpa [atKeyword] using hsame
  exact member

theorem isSegment_of_any {words : List String} (hwords : words ⊆ segmentWords) {pos : Position}
    {word : String} {ts : List TokenTree}
    (h : words.any (atKeyword · (.leaf pos (.word word) :: ts)) = true) : IsSegment word :=
  Or.inr (hwords (mem_of_any h))

theorem returns_name : Returns (fun found => isName found.1 = true) name := by
  intro scope s found s' hread
  obtain ⟨ahead, read, leftover⟩ := s
  match ahead with
  | .leaf pos (.word word) :: ts =>
      rw [name_apply] at hread
      split at hread
      · next hname =>
          cases hread
          exact hname
      · cases hread
  | .leaf pos (.punct _ _) :: ts => cases hread
  | .leaf pos (.literal _) :: ts => cases hread
  | .group _ _ _ _ :: ts => cases hread
  | [] => cases hread

/-- What may stand for a name is a name or one of the keywords allowed there. -/
theorem returns_nameOr_of_mem (allowed : List String) :
    Returns (fun found => isName found.1 = true ∨ found.1 ∈ allowed) (nameOr allowed) := by
  unfold nameOr
  rw [← bind_pure anyWord]
  refine .anyWord_behind (P := (· ∈ allowed)) (fun _ _ _ => mem_of_any) ?_ ?_
  · intro word pos hword
    exact .pure (Or.inr hword)
  · intro ts
    exact returns_name.imp fun found => Or.inl

theorem returns_nameOr {allowed : List String} (h : allowed ⊆ segmentWords) :
    Returns (fun found => IsSegment found.1) (nameOr allowed) :=
  (returns_nameOr_of_mem allowed).imp fun _ hfound => hfound.imp_right fun member => h member

section

variable {g : Readers}

theorem returns_segment (inExpr : Bool) :
    Returns (fun found => IsSegment found.1) (segment g inExpr) := by
  unfold segment
  refine .anyWord_behind (P := IsSegment) ?_ ?_ ?_
  · intro pos word ts h
    exact isSegment_of_any (by decide) h
  · intro word pos h
    exact .pure h
  · intro ts
    refine .bind_of (returns_nameOr (by decide)) fun found hfound => ?_
    refine .bind fun _ => .ite (.bind fun _ => .pure hfound) (.pure hfound)

theorem returns_path (inExpr : Bool) :
    Returns (fun shape => ∀ word ∈ shape.path.segments, IsSegment word) (path g inExpr) := by
  unfold path
  refine .bind fun _ => .bind_of (returns_segment inExpr) fun first hfirst => ?_
  have hmore : Returns (fun found => ∀ a ∈ found, IsSegment a.1) (moreSegments g inExpr) :=
    Returns.whileAt _ (.bind fun _ => returns_segment inExpr)
  refine .bind_of hmore fun more hmore => .pure ?_
  exact List.forall_mem_cons.mpr ⟨hfirst, List.forall_mem_map.mpr hmore⟩

/-- Where a list of answers has no gap, each element is one of the answers. -/
theorem mem_of_mapM_id {α : Type} {found : List (Option α)} {all : List α}
    (h : found.mapM id = some all) : ∀ a ∈ all, some a ∈ found := by
  induction found generalizing all with
  | nil =>
      obtain rfl : all = [] := by simpa using h.symm
      simp
  | cons first found ih =>
      rw [List.mapM_cons] at h
      obtain ⟨a, hfirst, h⟩ := Option.bind_eq_some_iff.mp h
      obtain ⟨rest, hrest, h⟩ := Option.bind_eq_some_iff.mp h
      obtain rfl : a :: rest = all := Option.some.inj h
      obtain rfl : first = some a := hfirst
      simpa using fun b hb => Or.inr (ih hrest b hb)

theorem allSegments_bindingWords {word : String} (h : IsSegment word ∨ word = "_") :
    AllSegments (bindingWords word) := by
  rw [bindingWords]
  rcases h with h | rfl
  · split
    · simp [AllSegments]
    · simpa [AllSegments] using h
  · simp [AllSegments]

theorem returns_importName : Returns (fun word => AllSegments (bindingWords word)) importName := by
  unfold importName
  refine .bind fun ts => .ite (.bind_of returns_name fun found hname => .pure ?_)
    (.ite (.bind fun _ => .pure ?_) (.failExpected _))
  · exact allSegments_bindingWords (Or.inl (Or.inl hname))
  · exact allSegments_bindingWords (Or.inr rfl)

theorem returns_useTreeRule (hg : ∀ fromRoot, Returns UseTree.SpelledIfAny (g (.useTree fromRoot)))
    (fromRoot : Bool) :
    Returns UseTree.SpelledIfAny (useTreeRule g fromRoot) := by
  unfold useTreeRule
  refine .anyWord_behind (P := IsSegment) ?_ ?_ ?_
  · intro pos word ts h
    rcases Bool.or_eq_true _ _ ▸ h with hname | hkeyword
    · exact isSegment_of_atName hname
    · exact isSegment_of_any (by decide) hkeyword
  · intro word pos hword
    have hsingle : AllSegments [word] := by simpa [AllSegments] using hword
    refine .bind fun _ => .ite (.bind fun _ => .bind_of (hg false) fun tree htree => .pure ?_) ?_
    · intro t ht
      obtain ⟨inner, hinner, rfl⟩ := Option.map_eq_some_iff.mp ht
      exact List.forall_mem_cons.mpr ⟨hword, htree inner hinner⟩
    · refine .ite (.bind fun _ => .bind_of returns_importName fun as_ has => .pure ?_) (.pure ?_)
      · rintro _ ⟨⟩
        exact List.forall_mem_cons.mpr ⟨hword, has⟩
      · rintro _ ⟨⟩
        exact hsingle
  · intro ts
    have hglob : AllSegments UseTree.glob.words := by simp [AllSegments, UseTree.words]
    refine .ite (.bind fun _ => .pure ?_) (.ite (.bind_of (.group _ (.separated _ _
      (P := UseTree.SpelledIfAny) ?_)) ?_) (.failExpected _))
    · rintro _ ⟨⟩
      exact hglob
    · have hbranch : ∀ root, Returns UseTree.SpelledIfAny (do
          let tree ← g (.useTree (fromRoot && !root))
          return if root then none else tree) := by
        intro root
        refine .bind_of (hg _) fun tree htree => .pure ?_
        cases root with
        | true => simp [UseTree.SpelledIfAny]
        | false => exact htree
      exact .ite (.bind hbranch) (.bind hbranch)
    · intro trees htrees
      refine .pure fun t ht => ?_
      obtain ⟨found, hfound, rfl⟩ := Option.map_eq_some_iff.mp ht
      apply UseTree.allSegments_wordsAll
      intro tree member
      exact htrees _ (mem_of_mapM_id hfound tree member) tree rfl

theorem isSegment_of_atPathWord {pos : Position} {word : String} {ts : List TokenTree}
    (h : atPathWord (.leaf pos (.word word) :: ts) = true) : IsSegment word := by
  rcases Bool.or_eq_true _ _ ▸ h with hname | hkeyword
  · exact isSegment_of_atName hname
  · exact isSegment_of_any (by decide) hkeyword

theorem returns_plainPath : Returns (fun path => AllSegments path.segments) plainPath := by
  unfold plainPath
  refine .bind fun leadingColon =>
    .bind_of (P := fun found => ∀ a ∈ found.1, IsSegment a.1) (.loop (by simp) ?step) ?whole
  case step =>
    rintro ⟨acc, open_⟩ hacc
    refine .anyWord_behind (P := IsSegment) (fun _ _ _ => isSegment_of_atPathWord) ?_
      fun _ => .pure hacc
    intro word pos hword
    have hboth : ∀ a ∈ (word, pos) :: acc, IsSegment a.1 := List.forall_mem_cons.mpr ⟨hword, hacc⟩
    exact .bind fun _ => .ite (.pure hboth) (.pure hboth)
  case whole =>
    rintro ⟨acc, open_⟩ hacc
    have hfound : ∀ a ∈ acc.reverse, IsSegment a.1 := by simpa using hacc
    dsimp only
    split
    · exact .bind fun _ => .failExpected _
    · next first pos more heq =>
        rw [heq] at hfound
        obtain ⟨hfirst, hmore⟩ := List.forall_mem_cons.mp hfound
        refine .ite (.fail _) (.pure ?_)
        exact List.forall_mem_cons.mpr ⟨hfirst, List.forall_mem_map.mpr hmore⟩

/-- The keyword that marks an attribute as unsafe stands alone. -/
theorem returns_attributePath :
    Returns (fun path => path.segments = ["unsafe"] ∨ AllSegments path.segments) attributePath := by
  unfold attributePath
  refine .anyWord_behind (P := (· = "unsafe")) ?_ ?_ ?_
  · intro pos word ts h
    simpa [atKeyword] using h
  · rintro word pos rfl
    exact .pure (Or.inl rfl)
  · exact fun _ => returns_plainPath.imp fun _ => Or.inr

theorem returns_oneAttribute (inner : Bool) :
    Returns (fun a => AllSegments a.words) (oneAttribute g inner) := by
  unfold oneAttribute
  have hinside : Returns (fun a => AllSegments a.words) (do
      let path ← attributePath
      return (⟨inner, path, ← attributeArgument g⟩ : Attribute)) := by
    refine .bind_of returns_attributePath fun path hpath => .bind fun _ => .pure ?_
    rw [Attribute.words]
    split
    · simp [AllSegments]
    · next hother => exact hpath.resolve_left hother
  exact .bind fun _ => .ite (.bind fun _ => .group _ hinside) (.group _ hinside)

theorem returns_outerAttributes : Returns Attribute.AllSpelled (outerAttributes g) :=
  .whileAt _ (returns_oneAttribute false)

theorem returns_innerAttributes : Returns Attribute.AllSpelled (innerAttributes g) :=
  .whileAt _ (returns_oneAttribute true)

theorem returns_body : Returns Attribute.AllSpelled (body g) :=
  .group _ (.bind_of returns_innerAttributes fun _ h => .bind fun _ => .pure h)

/-- A member is marked by words of paths, if it is a function. -/
def SpelledIfFunction (member : Option Function) : Prop :=
  ∀ f ∈ member, Attribute.AllSpelled f.attributes

theorem spelledIfFunction_none : SpelledIfFunction none :=
  nofun

theorem spelledIfFunction_some {f : Function} (h : Attribute.AllSpelled f.attributes) :
    SpelledIfFunction (some f) := by
  rintro _ ⟨⟩
  exact h

theorem allSpelled_append {outer inner : List Attribute} (houter : Attribute.AllSpelled outer)
    (hinner : Attribute.AllSpelled inner) : Attribute.AllSpelled (outer ++ inner) :=
  List.forall_mem_append.mpr ⟨houter, hinner⟩

theorem returns_traitFunction {attributes : List Attribute} (h : Attribute.AllSpelled attributes) :
    Returns SpelledIfFunction (do
      let inner ← outerAttributes g
      let (word, line) ← signature g false
      let ts ← rest
      if atBrace ts then
        let more ← body g
        return some ⟨attributes ++ inner ++ more, word, line⟩
      else if atOp ";" ts then
        op ";"
        return some ⟨attributes ++ inner, word, line⟩
      else failExpected ["curly braces", tick ";"]) := by
  refine .bind_of returns_outerAttributes fun inner hinner => .bind fun _ => .bind fun _ => ?_
  have houter := allSpelled_append h hinner
  refine .ite (.bind_of returns_body fun more hmore => .pure ?_)
    (.ite (.bind fun _ => .pure (spelledIfFunction_some houter)) (.failExpected _))
  exact spelledIfFunction_some (allSpelled_append houter hmore)

theorem returns_traitMember : Returns SpelledIfFunction (traitMember g) := by
  unfold traitMember
  refine .bind_of returns_outerAttributes fun attributes hattributes => ?_
  refine .bind fun visible => .bind fun preset =>
    .bind_of (P := SpelledIfFunction) ?member fun found hfound => ?_
  case member =>
    repeat' with_reducible first
      | exact returns_traitFunction hattributes
      | exact .failExpected _
      | exact .pure spelledIfFunction_none
      | refine .ite ?_ ?_
      | refine .bind fun _ => ?_
  exact .pure (by split; exacts [spelledIfFunction_none, hfound])

theorem returns_implementationFunction {attributes : List Attribute}
    (h : Attribute.AllSpelled attributes) : Returns SpelledIfFunction (do
      let (word, line) ← signature g false
      if ← op? ";" then return none
      let more ← body g
      return some ⟨attributes ++ more, word, line⟩) := by
  refine .bind fun _ => .bind fun _ => .ite (.pure spelledIfFunction_none) ?_
  refine .bind_of returns_body fun more hmore => .pure ?_
  exact spelledIfFunction_some (allSpelled_append h hmore)

theorem returns_implementationMember : Returns SpelledIfFunction (implementationMember g) := by
  unfold implementationMember
  refine .bind_of returns_outerAttributes fun attributes hattributes => ?_
  repeat' with_reducible first
    | exact returns_implementationFunction hattributes
    | exact .failExpected _
    | exact .pure spelledIfFunction_none
    | refine .ite ?_ ?_
    | refine .bind fun _ => ?_

theorem returns_members {member : Reader (Option Function)} (h : Returns SpelledIfFunction member) :
    Returns (fun found => AllSegments ((found.filterMap id).flatMap Function.words))
      (untilEnd member) := by
  refine Returns.imp (.whileAt _ h) fun found hfound => ?_
  refine Function.allSegments_flatMap fun f hf => ?_
  exact hfound (some f) (by simpa using hf) f rfl

theorem returns_items
    (hg : ∀ attributes, Attribute.AllSpelled attributes →
      Returns Item.Spelled (g (.item attributes))) :
    Returns Item.AllSpelled (items g) := by
  refine Returns.imp (.whileAt _ (.bind_of returns_outerAttributes hg)) ?_
  intro found hfound
  exact Item.allSpelled_iff.mpr hfound

theorem returns_submodule (hitems : Returns Item.AllSpelled (items g))
    (attributes : List Attribute) :
    Returns Item.Spelled (submodule g attributes) := by
  unfold submodule
  refine .bind fun _ => .bind fun _ => .bind_of (returns_nameOr (by decide)) fun found hfound => ?_
  have hinside : Returns (fun found => Item.AllSpelled found.2) (do
      let inner ← innerAttributes g
      return (inner, ← items g)) :=
    .bind fun _ => .bind_of hitems fun _ hcontent => .pure hcontent
  refine .bind fun _ => .ite (.bind fun _ => .pure ?_)
    (.ite (.bind_of (.group _ hinside) fun inside hcontent => .pure ?_) (.failExpected _))
  · simpa [Item.Spelled, AllSegments, Item.words] using hfound
  · exact List.forall_mem_cons.mpr ⟨hfound, hcontent⟩

/-- The name another crate is bound to, if it is renamed. -/
theorem returns_crateBinding :
    Returns (fun binding : Option String => AllSegments (binding.elim [] bindingWords)) (do
      if ← keyword? "as" then
        let (binding, _) ← nameOr ["_"]
        return some binding
      else return none) := by
  refine .bind fun _ => .ite (.bind_of (returns_nameOr_of_mem _) fun found hfound => .pure ?_)
    (.pure (by simp [AllSegments]))
  exact allSegments_bindingWords (hfound.imp Or.inl List.mem_singleton.mp)

theorem returns_externalCrate : Returns Item.Spelled externalCrate := by
  unfold externalCrate
  refine .bind fun _ => .bind fun _ => .bind_of (returns_nameOr (by decide)) fun found hfound => ?_
  refine .bind_of returns_crateBinding fun binding hbinding => .bind fun _ => .pure ?_
  exact List.forall_mem_cons.mpr ⟨hfound, hbinding⟩

/-- Most other items name nothing by a path. -/
theorem returns_foreignBlock : Returns Item.Spelled (foreignBlock g) := by
  unfold foreignBlock
  repeat' with_reducible first
    | refine .ite ?_ ?_
    | refine .bind fun _ => ?_
  all_goals exact .pure (Item.spelled_of_words rfl)

theorem returns_traitBody (word : String) : Returns Item.Spelled (traitBody g word) := by
  have hfunctions := Returns.group .brace (.bind (x := innerAttributes g) fun _ =>
    returns_members (returns_traitMember (g := g)))
  have hbody : Returns Item.Spelled (do
      let _ ← whereClause? g
      let functions ← braces do
        let _ ← innerAttributes g
        untilEnd (traitMember g)
      return .contract word (functions.filterMap id)) :=
    .bind fun _ => .bind_of hfunctions fun functions h => .pure h
  unfold traitBody
  exact .bind fun _ => .ite (.bind fun _ => hbody) hbody

theorem returns_traitItem : Returns Item.Spelled (traitItem g) := by
  unfold traitItem
  repeat' with_reducible first
    | refine .ite ?_ ?_
    | refine .bind fun _ => ?_
  exact returns_traitBody _

theorem returns_traitOrAlias : Returns Item.Spelled (traitOrAlias g) := by
  unfold traitOrAlias
  refine .bind fun _ => .bind fun found => .bind fun _ => .bind fun _ => ?_
  refine .ite (returns_traitBody _) (.ite ?_ (.failExpected _))
  exact .bind fun _ => .bind fun _ => .bind fun _ => .bind fun _ =>
    .pure (Item.spelled_of_words rfl)

theorem returns_implementation : Returns Item.Spelled (implementation g) := by
  have hfunctions := Returns.group .brace (.bind (x := innerAttributes g) fun _ =>
    returns_members (returns_implementationMember (g := g)))
  unfold implementation
  repeat' with_reducible first
    | refine .ite ?_ ?_
    | refine .bind_of hfunctions fun functions hmarked => ?_
    | refine .bind fun _ => ?_
    | split
  all_goals first
    | exact .pure (Item.spelled_of_words rfl)
    | exact .pure hmarked

theorem returns_foreignItem (ts : List TokenTree) :
    Returns Item.Spelled (foreignItem g ts) := by
  have hblock := returns_foreignBlock (g := g)
  unfold foreignItem
  have hwhole : Returns Item.Spelled (do
      if atKeyword "pub" (← rest) then failExpected [tick "extern"]
      foreignBlock g) :=
    .bind fun _ => .ite (.bind fun _ => hblock) hblock
  refine .ite (.bind fun _ => returns_externalCrate) (.ite hwhole (.ite (.ite hwhole ?_) ?_))
  · exact .bind fun _ => .bind fun _ => .bind fun _ => .failExpected _
  · exact .bind fun _ => .bind fun _ => .failExpected _

theorem returns_unsafeItem (hitems : Returns Item.AllSpelled (items g)) (ts : List TokenTree) :
    Returns Item.Spelled (unsafeItem g ts) := by
  have hblock := returns_foreignBlock (g := g)
  unfold unsafeItem
  refine .ite (.bind fun _ => returns_traitItem) (.ite returns_implementation (.ite ?_ ?_))
  · exact .bind fun _ => .ite (.bind fun _ => hblock) hblock
  · exact .bind fun _ => .ite (returns_submodule hitems []) (.bind fun _ => .failExpected _)

theorem returns_namedItem (word : String) (tail : Reader Unit) :
    Returns Item.Spelled (namedItem g word tail) :=
  .bind fun _ => .bind fun _ => .bind fun _ => .bind fun _ => .bind fun _ =>
    .pure (Item.spelled_of_words rfl)

theorem returns_staticItem : Returns Item.Spelled (staticItem g) := by
  unfold staticItem
  repeat' with_reducible first
    | refine .ite ?_ ?_
    | refine .bind fun _ => ?_
  all_goals exact .pure (Item.spelled_of_words rfl)

theorem returns_extensionItem : Returns Item.Spelled extensionItem := by
  unfold extensionItem
  repeat' with_reducible first
    | exact .failExpected _
    | refine .ite ?_ ?_
    | refine .bind fun _ => ?_
  all_goals exact .pure (Item.spelled_of_words rfl)

theorem returns_callItem : Returns Item.Spelled callItem := by
  unfold callItem
  refine .bind_of returns_plainPath fun path hpath => .bind fun _ => .bind fun _ => ?_
  refine .ite (.bind fun _ => .bind fun _ => .pure (Item.spelled_of_words rfl)) ?_
  exact .bind fun _ => .pure hpath

/-- What stands at the place of an item names things by words of paths, if its parts do. -/
theorem returns_itemRule
    (htrees : ∀ fromRoot, Returns UseTree.SpelledIfAny (g (.useTree fromRoot)))
    (hitems : Returns Item.AllSpelled (items g)) {attributes : List Attribute}
    (hattributes : Attribute.AllSpelled attributes) :
    Returns Item.Spelled (itemRule g attributes) := by
  have hother : Item.other.Spelled := Item.spelled_of_words rfl
  have hnamed : ∀ word tail, Returns Item.Spelled (namedItem g word tail) := returns_namedItem
  unfold itemRule
  refine .bind fun ahead => .bind fun (visible, ts) => .bind fun function => ?_
  refine .ite ?function (.ite (returns_foreignItem ts) (.ite ?use (.ite returns_staticItem
    (.ite ?const (.ite ?marked (.ite ?mod (.ite ?type (.ite (hnamed _ _) (.ite (hnamed _ _)
    (.ite (hnamed _ _) (.ite ?trait (.ite ?auto (.ite returns_implementation
    (.ite ?extension (.ite returns_callItem ?none)))))))))))))))
  case function =>
    refine .bind fun _ => .bind fun _ => .bind fun _ => .ite (.pure hother) ?_
    refine .bind_of returns_body fun inner hinner => .pure ?_
    exact Function.allSegments_words (allSpelled_append hattributes hinner)
  case use =>
    refine .bind fun _ => .bind fun _ => .bind fun leadingColon => .bind_of (htrees _) ?_
    intro tree htree
    refine .bind fun _ => .pure ?_
    cases tree with
    | none => exact hother
    | some tree => exact htree tree rfl
  case const =>
    refine .bind fun _ => .bind fun _ => .bind fun (word, plain) => .pure ?_
    cases plain <;> exact Item.spelled_of_words rfl
  case marked =>
    refine .bind_of (returns_unsafeItem hitems ts) fun item hitem => ?_
    split
    · next word inner content =>
        exact .pure (by cases content <;> exact hitem)
    · exact .pure hitem
  case mod => exact .bind fun _ => returns_submodule hitems attributes
  case type =>
    refine .bind fun _ => .bind fun (word, bounded, defined) => .pure ?_
    split <;> exact Item.spelled_of_words rfl
  case trait => exact .bind fun _ => returns_traitOrAlias
  case auto => exact .bind fun _ => returns_traitItem
  case extension => exact .bind fun _ => returns_extensionItem
  case none => exact .bind fun _ => .failExpected _

end

/-- Whatever the depth, the grammar lets only words of paths name things. -/
theorem returns_ofDepth (depth : Nat) :
    (∀ fromRoot, Returns UseTree.SpelledIfAny (ofDepth depth (.useTree fromRoot))) ∧
      ∀ attributes, Attribute.AllSpelled attributes →
        Returns Item.Spelled (ofDepth depth (.item attributes)) := by
  induction depth with
  | zero => exact ⟨fun _ => .fail _, fun _ _ => .fail _⟩
  | succ depth ih =>
      exact ⟨fun fromRoot => returns_useTreeRule ih.1 fromRoot,
        fun _ hattributes => returns_itemRule ih.1 (returns_items ih.2) hattributes⟩

/-- The words by which a source file names modules, what it imports, what it calls and what its
functions are marked with. -/
theorem allSpelled_of_parseFile {text : String} {found : List Item}
    (h : parseFile text = .ok found) :
    Item.AllSpelled found := by
  refine of_readText (P := Item.AllSpelled) (fun depth => ?_) h
  exact .bind fun _ => returns_items (returns_ofDepth depth).2

theorem allSegments_of_parsePathTokens {ts : List TokenTree} {shape : PathShape}
    (h : parsePathTokens ts = .ok shape) : AllSegments shape.path.segments :=
  of_readAll (P := fun shape => AllSegments shape.path.segments) (fun _ => returns_path false) h

theorem isName_of_parseName {text word : String} (h : parseName text = .ok word) :
    isName word = true := by
  refine of_readText (P := fun word => isName word = true) (fun depth => ?_) h
  exact .bind_of returns_name fun _ hname => .pure hname

end Grammar

end MarkerIndex
