import MarkerIndex.Grammar.File
/-!
Texts whose items are known. Items can be compared, so that what a grammar makes of a text can be
computed and from then on stands for the text.
-/

namespace MarkerIndex

namespace TokenTree

mutual

def decEq : (tree other : TokenTree) → Decidable (tree = other)
  | .leaf p token, .leaf q other =>
    if h : p = q ∧ token = other then isTrue (by rw [h.1, h.2]) else isFalse (by simpa using h)
  | .group d first last content, .group d' first' last' content' =>
    match decEqAll content content' with
    | isTrue hcontent =>
      if h : d = d' ∧ first = first' ∧ last = last' then
        isTrue (by rw [h.1, h.2.1, h.2.2, hcontent])
      else isFalse (by simpa [hcontent] using h)
    | isFalse hcontent => isFalse (by simp [hcontent])
  | .leaf _ _, .group _ _ _ _ => isFalse (by simp)
  | .group _ _ _ _, .leaf _ _ => isFalse (by simp)

def decEqAll : (trees others : List TokenTree) → Decidable (trees = others)
  | [], [] => isTrue rfl
  | [], _ :: _ => isFalse (by simp)
  | _ :: _, [] => isFalse (by simp)
  | tree :: trees, other :: others =>
    match decEq tree other with
    | isTrue htree =>
      match decEqAll trees others with
      | isTrue htrees => isTrue (by rw [htree, htrees])
      | isFalse htrees => isFalse (by simp [htrees])
    | isFalse htree => isFalse (by simp [htree])

end

instance : DecidableEq TokenTree := decEq

end TokenTree

deriving instance DecidableEq for AttributeArgument, Attribute, Function

namespace UseTree

mutual

/-- Whether two imports are the same. -/
def same : UseTree → UseTree → Bool
  | .path word tree, .path word' tree' => word = word' && same tree tree'
  | .name word, .name word' => word = word'
  | .rename word as_, .rename word' as_' => word = word' && as_ = as_'
  | .glob, .glob => true
  | .group trees, .group trees' => sameAll trees trees'
  | _, _ => false

def sameAll : List UseTree → List UseTree → Bool
  | [], [] => true
  | tree :: trees, tree' :: trees' => same tree tree' && sameAll trees trees'
  | _, _ => false

end

mutual

theorem eq_of_same : (tree other : UseTree) → same tree other = true → tree = other
  | .path word tree, other, h => by
      cases other with
      | path word' tree' =>
          simp only [same, Bool.and_eq_true, decide_eq_true_eq] at h
          rw [h.1, eq_of_same tree tree' h.2]
      | _ => simp [same] at h
  | .name _, other, h => by cases other <;> simp_all [same]
  | .rename _ _, other, h => by cases other <;> simp_all [same]
  | .glob, other, h => by cases other <;> simp_all [same]
  | .group trees, other, h => by
      cases other with
      | group trees' =>
          simp only [same] at h
          rw [eq_of_sameAll trees trees' h]
      | _ => simp [same] at h

theorem eq_of_sameAll : (trees others : List UseTree) → sameAll trees others = true → trees = others
  | [], [], _ => rfl
  | [], _ :: _, h => by simp [sameAll] at h
  | _ :: _, [], h => by simp [sameAll] at h
  | tree :: trees, other :: others, h => by
      simp only [sameAll, Bool.and_eq_true] at h
      rw [eq_of_same tree other h.1, eq_of_sameAll trees others h.2]

end

end UseTree

namespace Item

mutual

/-- Whether two items are the same, and stand at the same places. -/
def same : Item → Item → Bool
  | .use leadingColon tree, .use leadingColon' tree' =>
    leadingColon = leadingColon' && tree.same tree'
  | .externalCrate name rename, .externalCrate name' rename' => name = name' && rename = rename'
  | .submodule name attributes (some nested), .submodule name' attributes' (some nested') =>
    name = name' && attributes = attributes' && sameAll nested nested'
  | .submodule name attributes none, .submodule name' attributes' none =>
    name = name' && attributes = attributes'
  | .function f, .function f' => f = f'
  | .implementation owner functions, .implementation owner' functions' =>
    owner = owner' && functions = functions'
  | .contract name functions, .contract name' functions' => name = name' && functions = functions'
  | .invocation path body, .invocation path' body' => path = path' && body = body'
  | .declaration name, .declaration name' => name = name'
  | .other, .other => true
  | _, _ => false

def sameAll : List Item → List Item → Bool
  | [], [] => true
  | item :: items, item' :: items' => same item item' && sameAll items items'
  | _, _ => false

end

mutual

theorem eq_of_same : (i j : Item) → same i j = true → i = j
  | .use leadingColon tree, j, h => by
      cases j with
      | use leadingColon' tree' =>
          simp only [same, Bool.and_eq_true, decide_eq_true_eq] at h
          rw [h.1, UseTree.eq_of_same tree tree' h.2]
      | _ => simp [same] at h
  | .submodule name attributes (some nested), j, h => by
      cases j with
      | submodule name' attributes' content =>
          cases content with
          | some nested' =>
              simp only [same, Bool.and_eq_true, decide_eq_true_eq] at h
              rw [h.1.1, h.1.2, eq_of_sameAll nested nested' h.2]
          | none => simp [same] at h
      | _ => simp [same] at h
  | .submodule name attributes none, j, h => by
      cases j with
      | submodule name' attributes' content => cases content <;> simp_all [same]
      | _ => simp [same] at h
  | .externalCrate _ _, j, h => by cases j <;> simp_all [same]
  | .function _, j, h => by cases j <;> simp_all [same]
  | .implementation _ _, j, h => by cases j <;> simp_all [same]
  | .contract _ _, j, h => by cases j <;> simp_all [same]
  | .invocation _ _, j, h => by cases j <;> simp_all [same]
  | .declaration _, j, h => by cases j <;> simp_all [same]
  | .other, j, h => by cases j <;> simp_all [same]

theorem eq_of_sameAll : (is js : List Item) → sameAll is js = true → is = js
  | [], [], _ => rfl
  | [], _ :: _, h => by simp [sameAll] at h
  | _ :: _, [], h => by simp [sameAll] at h
  | i :: is, j :: js, h => by
      simp only [sameAll, Bool.and_eq_true] at h
      rw [eq_of_same i j h.1, eq_of_sameAll is js h.2]

end

/-- A text has the items that a test finds in it. -/
theorem parse_of_sameAll {text : String} {items : List Item}
    (h : (Grammar.parseFile text).toOption.any (sameAll · items) = true) :
    Grammar.parseFile text = .ok items := by
  cases hparse : Grammar.parseFile text with
  | error failure => simp [hparse, Except.toOption] at h
  | ok found =>
      have hsame : sameAll found items = true := by simpa [hparse, Except.toOption] using h
      rw [eq_of_sameAll found items hsame]

end Item

end MarkerIndex
