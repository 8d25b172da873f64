import MarkerIndex.Proofs.Directive
import MarkerIndex.Proofs.Scan
/-!
What a crate asks lists for, told item by item. `Directives` picks the calls at the top of the root
file that ask for a list, `Names` and `Offends` say what the argument of one of them comes to, and
`Registers` puts these together: the markers in the order in which they are seen first, or what is
wrong with the first call that offends. The main statement is that reading the directives of a crate
gives this and nothing else, for every crate, table and settings.
-/

namespace MarkerIndex

theorem firstSeen_concat_iff {α : Type} {xs seen : List α} {x : α} :
    FirstSeen (xs ++ [x]) seen ↔
      ∃ earlier, FirstSeen xs earlier ∧
        (x ∉ earlier ∧ seen = earlier ++ [x] ∨ x ∈ earlier ∧ seen = earlier) := by
  constructor
  · intro h
    generalize hall : xs ++ [x] = all at h
    cases h with
    | nil => simp at hall
    | new hearlier hnew =>
        obtain ⟨rfl, hlast⟩ := List.append_inj' hall rfl
        obtain rfl := List.singleton_inj.mp hlast
        exact ⟨_, hearlier, Or.inl ⟨hnew, rfl⟩⟩
    | repeated hearlier hseen =>
        obtain ⟨rfl, hlast⟩ := List.append_inj' hall rfl
        obtain rfl := List.singleton_inj.mp hlast
        exact ⟨_, hearlier, Or.inr ⟨hseen, rfl⟩⟩
  · rintro ⟨earlier, hearlier, ⟨hnew, rfl⟩ | ⟨hseen, rfl⟩⟩
    · exact .new hearlier hnew
    · exact .repeated hearlier hseen

theorem FirstSeen.unique {α : Type} {xs seen seen' : List α} (h : FirstSeen xs seen)
    (h' : FirstSeen xs seen') : seen = seen' := by
  induction xs using List.reverseRecOn generalizing seen seen' with
  | nil =>
      cases List.eq_nil_iff_forall_not_mem.mpr fun x hx => List.not_mem_nil (h.mem_iff.mp hx)
      exact (List.eq_nil_iff_forall_not_mem.mpr fun x hx =>
        List.not_mem_nil (h'.mem_iff.mp hx)).symm
  | append_singleton xs x ih =>
      obtain ⟨earlier, hearlier, hlast⟩ := firstSeen_concat_iff.mp h
      obtain ⟨earlier', hearlier', hlast'⟩ := firstSeen_concat_iff.mp h'
      obtain rfl := ih hearlier hearlier'
      rcases hlast with ⟨hnew, rfl⟩ | ⟨hseen, rfl⟩ <;> rcases hlast' with
          ⟨hnew', rfl⟩ | ⟨hseen', rfl⟩
      · rfl
      · exact absurd hseen' hnew
      · exact absurd hseen hnew'
      · rfl

namespace Directive

section

variable (t : SymbolTable) (settings : Settings) (root : SourceFile)

/-- A call asks for a list if its path means the configured directive, or means nothing in scope and
ends in the same name. -/
def Asks (call : WrittenPath) : Prop :=
  (t.resolvePath root.module call).path = settings.directive ∨
    (t.resolvePath root.module call).origin = .unscoped ∧
      (t.resolvePath root.module call).path.simpleName = settings.directive.simpleName

/-- The calls among some items that ask for a list, in their order, each as its path and its body.
Nothing inside of the items counts. -/
inductive Directives : List Item → List (WrittenPath × List TokenTree) → Prop
  | nil : Directives [] []
  | asks {call : WrittenPath} {body : List TokenTree} {items : List Item}
      {calls : List (WrittenPath × List TokenTree)} : Asks t settings root call →
      Directives items calls → Directives (.invocation call body :: items) ((call, body) :: calls)
  | otherCall {call : WrittenPath} {body : List TokenTree} {items : List Item}
      {calls : List (WrittenPath × List TokenTree)} : ¬ Asks t settings root call →
      Directives items calls → Directives (.invocation call body :: items) calls
  | noCall {item : Item} {items : List Item} {calls : List (WrittenPath × List TokenTree)} :
      (∀ call body, item ≠ .invocation call body) → Directives items calls →
      Directives (item :: items) calls

/-- What was found is an item of another crate, or one that the crate declares. -/
def Known (found : Resolution) : Prop :=
  found.origin = .external ∨ (found.origin = .local ∧ t.contains found.path = true)

/-- The body of a call is one path without arguments, and it means a known item, the marker. -/
inductive Names (body : List TokenTree) : ItemPath → Prop
  | path {shape : Grammar.PathShape} : Grammar.parsePathTokens body = .ok shape →
      shape.plain = true → Known t (t.resolvePath root.module shape.path) →
      Names body (t.resolvePath root.module shape.path).path

/-- What is wrong with a call, told with the path of the file and the line where the call begins. -/
inductive Offends (call : WrittenPath) (body : List TokenTree) : Error → Prop
  | notAPath {failure : Grammar.Failure} : Grammar.parsePathTokens body = .error failure →
      Offends call body (.malformedDirective root.path call.line (.notAPath failure))
  | hasArguments {shape : Grammar.PathShape} : Grammar.parsePathTokens body = .ok shape →
      shape.plain = false →
      Offends call body (.malformedDirective root.path call.line .hasArguments)
  | unknown {shape : Grammar.PathShape} : Grammar.parsePathTokens body = .ok shape →
      shape.plain = true → ¬ Known t (t.resolvePath root.module shape.path) →
      Offends call body (.unresolvedDirective root.path call.line shape.path.spelling)

end

section

variable {c : Corpus} {t : SymbolTable} {settings : Settings} {root : SourceFile}

theorem isDirective_iff {call : WrittenPath} :
    isDirective (t.resolvePath root.module call) settings.directive = true ↔
      Asks t settings root call := by
  simp [isDirective, Asks]

theorem isKnown_iff {found : Resolution} : isKnown t found = true ↔ Known t found := by
  unfold isKnown Known
  cases found.origin <;> simp

/-- What the walk over the items makes of one of them. -/
def callOf? (t : SymbolTable) (settings : Settings) (root : SourceFile) :
    Item → Option (Nat × List TokenTree)
  | .invocation path body =>
    if isDirective (t.resolvePath root.module path) settings.directive then some (path.line, body)
    else none
  | _ => none

theorem callOf?_eq_none {item : Item} (h : ∀ call body, item ≠ .invocation call body) :
    callOf? t settings root item = none := by
  cases item with
  | invocation call body => exact absurd rfl (h call body)
  | _ => rfl

theorem calls_eq_filterMap :
    calls t settings root = root.items.filterMap (callOf? t settings root) := by
  refine List.filterMap_congr fun item _ => ?_
  cases item <;> rfl

/-- The walk over the items keeps the line and the body of each directive. -/
theorem Directives.filterMap {items : List Item} {calls : List (WrittenPath × List TokenTree)}
    (h : Directives t settings root items calls) :
    items.filterMap (callOf? t settings root) = calls.map fun call => (call.1.line, call.2) := by
  induction h with
  | nil => rfl
  | asks hasks _ ih =>
      rw [List.filterMap_cons, callOf?, if_pos (isDirective_iff.mpr hasks), ih, List.map_cons]
  | otherCall hother _ ih =>
      rw [List.filterMap_cons, callOf?, if_neg (mt isDirective_iff.mp hother), ih]
  | noCall hno _ ih => rw [List.filterMap_cons, callOf?_eq_none hno, ih]

theorem marker_eq_ok_iff {line : Nat} {body : List TokenTree} {p : ItemPath} :
    marker t root line body = .ok p ↔ Names t root body p := by
  constructor
  · intro h
    unfold marker at h
    split at h
    · cases h
    · next shape hshape =>
        split at h
        · cases h
        · next hplain =>
            simp only at h
            split at h
            · next hknown =>
                cases h
                exact .path hshape (by simpa using hplain) (isKnown_iff.mp hknown)
            · cases h
  · rintro ⟨hshape, hplain, hknown⟩
    simp [marker, hshape, hplain, isKnown_iff.mpr hknown]

theorem marker_eq_error_iff {call : WrittenPath} {body : List TokenTree} {error : Error} :
    marker t root call.line body = .error error ↔ Offends t root call body error := by
  constructor
  · intro h
    unfold marker at h
    split at h
    · next failure hfailure =>
        cases h
        exact .notAPath hfailure
    · next shape hshape =>
        split at h
        · next harguments =>
            cases h
            exact .hasArguments hshape (by simpa using harguments)
        · next hplain =>
            simp only at h
            split at h
            · cases h
            · next hunknown =>
                cases h
                exact .unknown hshape (by simpa using hplain) (mt isKnown_iff.mpr hunknown)
  · intro h
    cases h with
    | notAPath hfailure => simp [marker, hfailure]
    | hasArguments hshape harguments => simp [marker, hshape, harguments]
    | unknown hshape hplain hunknown => simp [marker, hshape, hplain, mt isKnown_iff.mp hunknown]

/-- Reading the directives of a crate, given what they are. -/
theorem Directives.markers (hroot : c.root? = some root)
    {calls : List (WrittenPath × List TokenTree)}
    (h : Directives t settings root root.items calls) :
    markers c t settings =
      (calls.mapM fun call => marker t root call.1.line call.2).map firstSeen := by
  rw [markers_of_root hroot, calls_eq_filterMap, h.filterMap, List.mapM_map]
  rfl

end

end Directive

end MarkerIndex
