import MarkerIndex.Crate.Scan
import MarkerIndex.Proofs.ModuleTree
import Mathlib.Data.List.Forall2
/-!
The functions of a crate by where they stand. An address leads from the files of the crate to a
function: the number of the file, those of the items on the way, and that of the function in its
type or trait. The main statement is that a scan has exactly one declaration for each address of a
marked function, in the order of the addresses, and that each of them describes its function.
-/

namespace MarkerIndex

/-- The elements of a list in order, each where it stands first. -/
inductive FirstSeen {α : Type} : List α → List α → Prop
  | nil : FirstSeen [] []
  | new {xs seen : List α} {x : α} : FirstSeen xs seen → x ∉ seen →
      FirstSeen (xs ++ [x]) (seen ++ [x])
  | repeated {xs seen : List α} {x : α} : FirstSeen xs seen → x ∈ seen → FirstSeen (xs ++ [x]) seen

theorem firstSeen_eraseDups {α : Type} [DecidableEq α] (xs : List α) :
    FirstSeen xs xs.eraseDups := by
  induction xs using List.reverseRecOn with
  | nil => exact .nil
  | append_singleton xs x ih =>
      rw [List.eraseDups_append]
      by_cases hx : x ∈ xs
      · simpa [List.removeAll, hx] using FirstSeen.repeated ih (List.mem_eraseDups.mpr hx)
      · have hsingle : [x].eraseDups = [x] := by simp [List.eraseDups_cons]
        simpa [List.removeAll, hx, hsingle] using FirstSeen.new ih (mt List.mem_eraseDups.mp hx)

theorem FirstSeen.mem_iff {α : Type} {xs seen : List α} (h : FirstSeen xs seen) {x : α} :
    x ∈ seen ↔ x ∈ xs := by
  induction h generalizing x with
  | nil => simp
  | new _ _ ih => simp [ih]
  | repeated _ hseen ih =>
      rw [List.mem_append, List.mem_singleton, ih]
      constructor
      · exact Or.inl
      · rintro (hx | rfl)
        · exact hx
        · exact ih.mp hseen

theorem FirstSeen.nodup {α : Type} {xs seen : List α} (h : FirstSeen xs seen) : seen.Nodup := by
  induction h with
  | nil => exact List.nodup_nil
  | new _ hnew ih =>
      apply List.nodup_append.mpr
      refine ⟨ih, by simp, ?_⟩
      rintro y hy _ hx rfl
      exact hnew (List.mem_singleton.mp hx ▸ hy)
  | repeated _ _ ih => exact ih

namespace Attribute

/-- What the attribute means in a module. -/
def identity (t : SymbolTable) (m : ItemPath) (a : Attribute) : ItemPath :=
  (t.resolvePath m a.path).path

/-- The only argument of the attribute is a text literal of this value. -/
def HasText (a : Attribute) (value : String) : Prop :=
  ∃ pos literal, a.argument = .tokens [.leaf pos (.literal literal)] ∧
    Text.literalValue? literal = some value

theorem textArgument?_eq_some_iff {a : Attribute} {value : String} :
    a.textArgument? = some value ↔ a.HasText value := by
  unfold textArgument? HasText
  split
  · next pos text harg =>
      constructor
      · intro h
        exact ⟨pos, text, harg, h⟩
      · rintro ⟨_, _, hsame, h⟩
        rw [harg] at hsame
        cases hsame
        exact h
  · next hother =>
      simp only [reduceCtorEq, false_iff]
      rintro ⟨pos, literal, harg, -⟩
      exact hother pos literal harg

end Attribute

/-- The attributes that mark a function: those in front of it that are not its documentation. -/
def Function.marks (f : Function) : List Attribute :=
  f.attributes.filter fun a => !a.inner && !a.path.isName "doc"

namespace Declaration

/-- The declaration tells of the function at its place what there is to tell. -/
structure Describes (t : SymbolTable) (registration : ItemPath) (place : Place) (f : Function)
    (d : Declaration) : Prop where
  module : d.module = place.module
  owner : d.owner = place.owner
  file : d.file = place.file
  name : d.name = Text.unraw f.name
  line : d.line = f.line
  /-- The identities of the marks in the order written, without repeats. -/
  markers : FirstSeen (f.marks.map (·.identity t place.module)) d.markers
  marked : d.markers ≠ []
  /-- The name is the text argument of the first mark that means the registration marker. -/
  registration : ∀ name, d.registration = some name ↔ ∃ earlier a later,
    f.marks = earlier ++ a :: later ∧ (∀ b ∈ earlier, b.identity t place.module ≠ registration) ∧
      a.identity t place.module = registration ∧ a.HasText name

theorem Describes.registration_mem {t : SymbolTable} {registration : ItemPath} {place : Place}
    {f : Function} {d : Declaration} (h : Describes t registration place f d) {name : String}
    (hname : d.registration = some name) : registration ∈ d.markers := by
  obtain ⟨earlier, a, later, hmarks, -, ha, -⟩ := (h.registration name).mp hname
  rw [h.markers.mem_iff, hmarks, ← ha]
  simp

section

variable {t : SymbolTable} {registration : ItemPath} {place : Place} {f : Function}

theorem ofFunction?_of_marks_eq_nil (h : f.marks = []) :
    ofFunction? t registration place f = none := by
  have hfilter : f.attributes.filter Attribute.isMarker = [] := h
  simp [ofFunction?, hfilter]

/-- A marked function has a declaration, which describes it. -/
theorem exists_describes (h : f.marks ≠ []) :
    ∃ d, ofFunction? t registration place f = some d ∧ Describes t registration place f d := by
  have hfilter : f.attributes.filter Attribute.isMarker = f.marks := rfl
  have hfound : f.marks.isEmpty = false := List.isEmpty_eq_false_iff.mpr h
  simp only [ofFunction?, hfilter, List.isEmpty_map, hfound, Bool.false_eq_true, ↓reduceIte,
    Option.some.injEq, exists_eq_left']
  constructor
  case module | owner | file | name | line => rfl
  case markers =>
    simpa only [List.map_map, Function.comp_def, Attribute.identity] using
      firstSeen_eraseDups (f.marks.map (·.identity t place.module))
  case marked =>
    intro hnil
    obtain ⟨a, ha⟩ := List.exists_mem_of_ne_nil _ h
    have hmember : a.identity t place.module ∈
        (f.marks.map (·.identity t place.module)).eraseDups :=
      List.mem_eraseDups.mpr (List.mem_map_of_mem ha)
    simp_all [Attribute.identity, Function.comp_def]
  case registration =>
    intro name
    simp only [List.find?_map, Option.bind_map, Option.bind_eq_some_iff,
      List.find?_eq_some_iff_append, Function.comp_def, decide_eq_true_eq, Bool.not_eq_true',
      decide_eq_false_iff_not, Attribute.textArgument?_eq_some_iff]
    constructor
    · rintro ⟨a, ⟨ha, earlier, later, hmarks, hearlier⟩, htext⟩
      exact ⟨earlier, a, later, hmarks, hearlier, ha, htext⟩
    · rintro ⟨earlier, a, later, hmarks, hearlier, ha, htext⟩
      exact ⟨a, ⟨ha, earlier, later, hmarks, hearlier⟩, htext⟩

end

/-- A function of an item, by the numbers on the way to it and the place that it stands at. Bodies
and items of other kinds hold none. -/
inductive Holds : Place → Item → List Nat → Place → Function → Prop
  | function {place : Place} {f : Function} : Holds place (.function f) [] place f
  | implementation {place : Place} {owner : String} {functions : List Function} {i : Nat}
      {f : Function} : functions[i]? = some f →
      Holds place (.implementation owner functions) [i] { place with owner := some owner } f
  | contract {place : Place} {name : String} {functions : List Function} {i : Nat}
      {f : Function} : functions[i]? = some f →
      Holds place (.contract name functions) [i]
        { place with owner := some (Text.unraw name) } f
  | submodule {place inner : Place} {name : String} {attributes : List Attribute}
      {items : List Item} {i : Nat} {item : Item} {address : List Nat} {f : Function} :
      items[i]? = some item →
      Holds { place with module := place.module.join name, owner := none } item address inner f →
      Holds place (.submodule name attributes (some items)) (i :: address) inner f

/-- A function of a crate, by its address and the place that it stands at. -/
inductive StandsAt (c : Corpus) : List Nat → Place → Function → Prop
  | inFile {n i : Nat} {file : SourceFile} {item : Item} {address : List Nat} {place : Place}
      {f : Function} : c.files[n]? = some file → file.items[i]? = some item →
      Holds ⟨file.path, file.module, none⟩ item address place f →
      StandsAt c (n :: i :: address) place f

/-- The module in which a function of an item stands is known once the item's facts are. -/
theorem Holds.isModule {t : SymbolTable} {place inner : Place} {item : Item} {address : List Nat}
    {f : Function} (h : Holds place item address inner f)
    (hfacts : ∀ fact ∈ Fact.ofItem place.module item, fact ∈ t.facts)
    (hplace : t.isModule place.module = true) : t.isModule inner.module = true := by
  induction h with
  | function | implementation _ | contract _ => exact hplace
  | @submodule place _ name _ items _ item _ _ hitem _ ih =>
      have hnested : ∀ fact ∈ Fact.ofItems (place.module.join name) items, fact ∈ t.facts :=
        fun fact member => hfacts fact (by simp [Fact.ofItem, member])
      apply ih
      · intro fact member
        exact hnested fact (Fact.mem_ofItems.mpr ⟨item, List.mem_of_getElem? hitem, member⟩)
      · exact SymbolTable.isModule_of_mem (hfacts (place.module.join name, .module)
          (by simp [Fact.ofItem]))

theorem StandsAt.isModule {c : Corpus} {address : List Nat} {place : Place} {f : Function}
    (h : StandsAt c address place f) (external : List ItemPath) :
    (c.table external).isModule place.module = true := by
  cases h with
  | @inFile _ _ file item _ _ _ hfile hitem hholds =>
      have hmember : file ∈ c.files := List.mem_of_getElem? hfile
      apply hholds.isModule
      · intro fact member
        apply List.mem_flatMap.mpr
        refine ⟨file, hmember, List.mem_cons_of_mem _ ?_⟩
        exact Fact.mem_ofItems.mpr ⟨item, List.mem_of_getElem? hitem, member⟩
      · exact SymbolTable.isModule_of_file hmember

/-- A function with its address and its place. -/
structure Standing where
  address : List Nat
  place : Place
  function : Function

namespace Standing

/-- The function as one that stands one number further down. -/
def below (n : Nat) (s : Standing) : Standing :=
  { s with address := n :: s.address }

/-- Lists of functions one after another, each below the number of its list. -/
def numbered (n : Nat) : List (List Standing) → List Standing
  | [] => []
  | list :: lists => list.map (below n) ++ numbered (n + 1) lists

def InOrder (list : List Standing) : Prop :=
  list.Pairwise fun a b => a.address < b.address

theorem mem_numbered {n : Nat} {lists : List (List Standing)} {s : Standing} :
    s ∈ numbered n lists ↔
      ∃ (i : Nat) (list : List Standing), lists[i]? = some list ∧
        ∃ inner ∈ list, s = inner.below (n + i) := by
  induction lists generalizing n with
  | nil => simp [numbered]
  | cons list lists ih =>
      rw [numbered, List.mem_append, ih]
      constructor
      · rintro (hfirst | ⟨i, later, hlater, inner, hinner, rfl⟩)
        · obtain ⟨inner, hinner, rfl⟩ := List.mem_map.mp hfirst
          exact ⟨0, list, rfl, inner, hinner, rfl⟩
        · exact ⟨i + 1, later, hlater, inner, hinner, by rw [Nat.add_right_comm, Nat.add_assoc]⟩
      · rintro ⟨i, found, hfound, inner, hinner, rfl⟩
        cases i with
        | zero =>
            obtain rfl : list = found := by simpa using hfound
            exact Or.inl (List.mem_map_of_mem hinner)
        | succ i =>
            refine Or.inr ⟨i, found, by simpa using hfound, inner, hinner, ?_⟩
            rw [Nat.add_right_comm, Nat.add_assoc]

theorem InOrder.numbered {lists : List (List Standing)} (h : ∀ list ∈ lists, InOrder list)
    (n : Nat) : InOrder (numbered n lists) := by
  induction lists generalizing n with
  | nil => exact .nil
  | cons list lists ih =>
      obtain ⟨hlist, hlists⟩ := List.forall_mem_cons.mp h
      apply List.pairwise_append.mpr
      refine ⟨?_, ih hlists (n + 1), ?_⟩
      · apply List.pairwise_map.mpr
        exact hlist.imp fun hlt => List.cons_lt_cons_iff.mpr (Or.inr ⟨rfl, hlt⟩)
      · intro a ha b hb
        obtain ⟨_, _, rfl⟩ := List.mem_map.mp ha
        obtain ⟨i, _, _, _, _, rfl⟩ := mem_numbered.mp hb
        exact List.cons_lt_cons_iff.mpr (Or.inl (by omega))

theorem filterMap_numbered {β : Type} (g : Place → Function → Option β) (n : Nat)
    (lists : List (List Standing)) :
    (numbered n lists).filterMap (fun s => g s.place s.function) =
      lists.flatMap fun list => list.filterMap fun s => g s.place s.function := by
  induction lists generalizing n with
  | nil => rfl
  | cons list lists ih =>
      simp [Standing.numbered, ih, List.filterMap_map, Function.comp_def, below]

end Standing

open Standing

/-- The functions of one type or trait. -/
def standingOf (place : Place) (functions : List Function) : List Standing :=
  numbered 0 (functions.map fun f => [⟨[], place, f⟩])

mutual

def standing (place : Place) : Item → List Standing
  | .function f => [⟨[], place, f⟩]
  | .implementation owner functions => standingOf { place with owner := some owner } functions
  | .contract name functions =>
    standingOf { place with owner := some (Text.unraw name) } functions
  | .submodule name _ (some items) =>
    numbered 0 (standingAll { place with module := place.module.join name, owner := none } items)
  | _ => []

def standingAll (place : Place) : List Item → List (List Standing)
  | [] => []
  | item :: items => standing place item :: standingAll place items

end

theorem standingAll_eq_map (place : Place) (items : List Item) :
    standingAll place items = items.map (standing place) := by
  induction items with
  | nil => rfl
  | cons item items ih => rw [standingAll, ih, List.map_cons]

theorem mem_standingOf {place : Place} {functions : List Function} {s : Standing} :
    s ∈ standingOf place functions ↔
      ∃ i f, functions[i]? = some f ∧ s = ⟨[i], place, f⟩ := by
  rw [standingOf, mem_numbered]
  constructor
  · rintro ⟨i, list, hlist, inner, hinner, rfl⟩
    rw [List.getElem?_map, Option.map_eq_some_iff] at hlist
    obtain ⟨f, hf, rfl⟩ := hlist
    obtain rfl := List.mem_singleton.mp hinner
    exact ⟨i, f, hf, by simp [below]⟩
  · rintro ⟨i, f, hf, rfl⟩
    exact ⟨i, [⟨[], place, f⟩], by simp [hf], ⟨[], place, f⟩, by simp, by simp [below]⟩

mutual

theorem holds_of_mem_standing (place : Place) :
    (item : Item) → ∀ s ∈ standing place item, Holds place item s.address s.place s.function
  | .function f, s, member => by
      obtain rfl : s = ⟨[], place, f⟩ := by simpa [standing] using member
      exact .function
  | .implementation owner functions, s, member => by
      obtain ⟨i, f, hf, rfl⟩ := mem_standingOf.mp (by simpa only [standing] using member)
      exact .implementation hf
  | .contract name functions, s, member => by
      obtain ⟨i, f, hf, rfl⟩ := mem_standingOf.mp (by simpa only [standing] using member)
      exact .contract hf
  | .submodule name _ (some items), s, member => by
      obtain ⟨i, list, hlist, inner, hinner, rfl⟩ :=
        mem_numbered.mp (by simpa only [standing] using member)
      obtain ⟨item, hitem, hholds⟩ := holds_of_mem_standingAll _ items i list hlist inner hinner
      rw [Nat.zero_add]
      exact .submodule hitem hholds
  | .submodule _ _ none, _, member => by simp [standing] at member
  | .use _ _, _, member => by simp [standing] at member
  | .externalCrate _ _, _, member => by simp [standing] at member
  | .invocation _ _, _, member => by simp [standing] at member
  | .declaration _, _, member => by simp [standing] at member
  | .other, _, member => by simp [standing] at member

theorem holds_of_mem_standingAll (place : Place) :
    (items : List Item) → ∀ (i : Nat) (list : List Standing),
      (standingAll place items)[i]? = some list →
      ∀ s ∈ list, ∃ item, items[i]? = some item ∧ Holds place item s.address s.place s.function
  | [], i, list, hlist => by simp [standingAll] at hlist
  | item :: items, 0, list, hlist => by
      obtain rfl : standing place item = list := by simpa [standingAll] using hlist
      intro s member
      exact ⟨item, rfl, holds_of_mem_standing place item s member⟩
  | item :: items, i + 1, list, hlist =>
      holds_of_mem_standingAll place items i list (by simpa [standingAll] using hlist)

end

theorem Holds.mem_standing {place inner : Place} {item : Item} {address : List Nat} {f : Function}
    (h : Holds place item address inner f) : ⟨address, inner, f⟩ ∈ standing place item := by
  induction h with
  | function => simp [standing]
  | implementation hf => exact mem_standingOf.mpr ⟨_, _, hf, rfl⟩
  | contract hf => exact mem_standingOf.mpr ⟨_, _, hf, rfl⟩
  | @submodule _ inner _ _ _ i item address f hitem _ ih =>
      rw [standing, standingAll_eq_map, mem_numbered]
      refine ⟨i, standing _ item,
        by rw [List.getElem?_map, hitem]; rfl, ⟨address, inner, f⟩, ih, ?_⟩
      rw [Nat.zero_add]
      rfl

theorem inOrder_standingOf (place : Place) (functions : List Function) :
    InOrder (standingOf place functions) := by
  apply InOrder.numbered
  intro list member
  obtain ⟨f, _, rfl⟩ := List.mem_map.mp member
  exact List.pairwise_singleton _ _

mutual

theorem inOrder_standing (place : Place) : (item : Item) → InOrder (standing place item)
  | .function _ => List.pairwise_singleton _ _
  | .implementation _ functions => inOrder_standingOf _ functions
  | .contract _ functions => inOrder_standingOf _ functions
  | .submodule _ _ (some items) => InOrder.numbered (inOrder_standingAll _ items) 0
  | .submodule _ _ none => .nil
  | .use _ _ => .nil
  | .externalCrate _ _ => .nil
  | .invocation _ _ => .nil
  | .declaration _ => .nil
  | .other => .nil

theorem inOrder_standingAll (place : Place) :
    (items : List Item) → ∀ list ∈ standingAll place items, InOrder list
  | [], _, member => by simp [standingAll] at member
  | item :: items, list, member => by
      rcases List.mem_cons.mp (by simpa only [standingAll] using member) with rfl | member
      · exact inOrder_standing place item
      · exact inOrder_standingAll place items list member

end

section

variable (t : SymbolTable) (registration : ItemPath)

theorem filterMap_standingOf (place : Place) (functions : List Function) :
    (standingOf place functions).filterMap
        (fun s => ofFunction? t registration s.place s.function) =
      functions.filterMap (ofFunction? t registration place) := by
  rw [standingOf, filterMap_numbered, List.flatMap_map, List.filterMap_eq_flatMap_toList]
  refine List.flatMap_congr fun f _ => ?_
  cases h : ofFunction? t registration place f <;> simp [h]

mutual

theorem filterMap_standing (place : Place) : (item : Item) →
    (standing place item).filterMap (fun s => ofFunction? t registration s.place s.function) =
      ofItem t registration place item
  | .function f => by
      rw [standing, ofItem, List.filterMap_eq_flatMap_toList]
      simp
  | .implementation _ functions => by rw [standing, ofItem, filterMap_standingOf]
  | .contract _ functions => by rw [standing, ofItem, filterMap_standingOf]
  | .submodule _ _ (some items) => by
      rw [standing, ofItem, filterMap_numbered, flatMap_standingAll]
  | .submodule _ _ none => by simp [standing, ofItem]
  | .use _ _ => by simp [standing, ofItem]
  | .externalCrate _ _ => by simp [standing, ofItem]
  | .invocation _ _ => by simp [standing, ofItem]
  | .declaration _ => by simp [standing, ofItem]
  | .other => by simp [standing, ofItem]

theorem flatMap_standingAll (place : Place) : (items : List Item) →
    (standingAll place items).flatMap (fun list =>
        list.filterMap fun s => ofFunction? t registration s.place s.function) =
      ofItems t registration place items
  | [] => rfl
  | item :: items => by
      rw [standingAll, List.flatMap_cons, ofItems, filterMap_standing place item,
        flatMap_standingAll place items]

end

end

/-- All functions of a crate, file by file. -/
def standingIn (c : Corpus) : List Standing :=
  numbered 0 (c.files.map fun file =>
    numbered 0 (standingAll ⟨file.path, file.module, none⟩ file.items))

theorem mem_standingIn {c : Corpus} {s : Standing} :
    s ∈ standingIn c ↔ StandsAt c s.address s.place s.function := by
  rw [standingIn, mem_numbered]
  constructor
  · rintro ⟨n, list, hlist, inner, hinner, rfl⟩
    rw [List.getElem?_map, Option.map_eq_some_iff] at hlist
    obtain ⟨file, hfile, rfl⟩ := hlist
    obtain ⟨i, list, hlist, innermost, hinnermost, rfl⟩ := mem_numbered.mp hinner
    obtain ⟨item, hitem, hholds⟩ :=
      holds_of_mem_standingAll _ file.items i list hlist innermost hinnermost
    rw [Nat.zero_add, Nat.zero_add]
    exact .inFile hfile hitem hholds
  · obtain ⟨address, place, f⟩ := s
    intro hstands
    cases hstands with
    | @inFile n i file item address _ _ hfile hitem hholds =>
        have hinner : Standing.below i ⟨address, place, f⟩ ∈
            numbered 0 (standingAll ⟨file.path, file.module, none⟩ file.items) := by
          rw [mem_numbered, standingAll_eq_map]
          refine ⟨i, standing _ item, by rw [List.getElem?_map, hitem]; rfl, _,
            hholds.mem_standing, ?_⟩
          rw [Nat.zero_add]
        refine ⟨n, _, by rw [List.getElem?_map, hfile]; rfl, _, hinner, ?_⟩
        rw [Nat.zero_add]
        rfl

theorem inOrder_standingIn (c : Corpus) : InOrder (standingIn c) := by
  apply InOrder.numbered
  intro list member
  obtain ⟨file, _, rfl⟩ := List.mem_map.mp member
  exact InOrder.numbered (inOrder_standingAll _ file.items) 0

theorem filterMap_standingIn (t : SymbolTable) (registration : ItemPath) (c : Corpus) :
    (standingIn c).filterMap (fun s => ofFunction? t registration s.place s.function) =
      ofCorpus t registration c := by
  rw [standingIn, filterMap_numbered, List.flatMap_map, ofCorpus]
  simp only [filterMap_numbered, flatMap_standingAll]

/-- What a scan finds depends on what attributes mean in the modules that their functions stand in.
-/
theorem ofCorpus_congr {t t' : SymbolTable} {registration : ItemPath} {c : Corpus}
    (h : ∀ s ∈ standingIn c, ∀ a ∈ s.function.attributes,
      t'.resolvePath s.place.module a.path = t.resolvePath s.place.module a.path) :
    ofCorpus t' registration c = ofCorpus t registration c := by
  rw [← filterMap_standingIn, ← filterMap_standingIn]
  apply List.filterMap_congr
  intro s member
  have hmarks : (s.function.attributes.filter Attribute.isMarker).map (fun a =>
      ((t'.resolvePath s.place.module a.path).path, a)) =
        (s.function.attributes.filter Attribute.isMarker).map fun a =>
          ((t.resolvePath s.place.module a.path).path, a) :=
    List.map_congr_left fun a ha => by rw [h s member a (List.mem_filter.mp ha).1]
  simp only [ofFunction?, hmarks]

/-- Lists of results match the elements that have one. -/
theorem forall₂_filterMap {α β : Type} {R : α → β → Prop} {keep : α → Bool} {g : α → Option β}
    {list : List α} (hdropped : ∀ a, keep a = false → g a = none)
    (hkept : ∀ a ∈ list, keep a = true → ∃ b, g a = some b ∧ R a b) :
    List.Forall₂ R (list.filter keep) (list.filterMap g) := by
  induction list with
  | nil => exact .nil
  | cons a list ih =>
      have hrest := ih fun a ha => hkept a (List.mem_cons_of_mem _ ha)
      cases hkeep : keep a with
      | false =>
          rw [List.filter_cons_of_neg (by simp [hkeep]),
            List.filterMap_cons_none (hdropped a hkeep)]
          exact hrest
      | true =>
          obtain ⟨b, hb, hR⟩ := hkept a List.mem_cons_self hkeep
          rw [List.filter_cons_of_pos hkeep, List.filterMap_cons_some hb]
          exact .cons hR hrest

/-- A scan has one declaration for each place of a marked function, in the order of the places. It
describes its function, its module is known, its markers do not repeat, and where it has a
registration name the registration marker is among them. -/
theorem ofCorpus_describes (c : Corpus) (external : List ItemPath) (registration : ItemPath) :
    ∃ sites : List Standing, InOrder sites ∧
      (∀ s, s ∈ sites ↔ StandsAt c s.address s.place s.function ∧ s.function.marks ≠ []) ∧
      List.Forall₂
        (fun s d => Describes (c.table external) registration s.place s.function d ∧
          (c.table external).isModule d.module = true ∧ d.markers.Nodup ∧
          (d.registration ≠ none → registration ∈ d.markers))
        sites (ofCorpus (c.table external) registration c) := by
  refine ⟨(standingIn c).filter fun s => !s.function.marks.isEmpty, ?_, ?_, ?_⟩
  · exact (inOrder_standingIn c).filter _
  · intro s
    simp [mem_standingIn]
  · rw [← filterMap_standingIn]
    apply forall₂_filterMap
    · intro s hmarks
      exact ofFunction?_of_marks_eq_nil (by simpa using hmarks)
    · intro s member hmarks
      have hmarked : s.function.marks ≠ [] := by simpa using hmarks
      obtain ⟨d, hd, hdescribes⟩ :=
        @exists_describes (c.table external) registration s.place s.function hmarked
      refine ⟨d, hd, hdescribes, ?_, hdescribes.markers.nodup, ?_⟩
      · rw [hdescribes.module]
        exact (mem_standingIn.mp member).isModule external
      · intro hname
        obtain ⟨name, hname⟩ := Option.ne_none_iff_exists'.mp hname
        exact hdescribes.registration_mem hname

end Declaration

end MarkerIndex
