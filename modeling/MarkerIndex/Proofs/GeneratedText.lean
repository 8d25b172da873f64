import MarkerIndex.Proofs.Binding
import MarkerIndex.Proofs.Quoted
import MarkerIndex.Source.Scan
import Mathlib.Data.List.Infix
import Mathlib.Data.List.TakeWhile
/-!
Reading the generated text line by line. The reader passes over the lines in front of the constants
and then goes by the layout alone: the line of documentation, the line that opens a constant, one
line for each name, the line that closes it. No name on a list can be taken for a line of the
layout, because it stands between quotes on a line of its own. The main statement is that the text
gives back the whole classification.
-/

namespace MarkerIndex

namespace Text

/-- The text is a name or a keyword, and a name may be raw. -/
def IsWord (s : String) : Prop :=
  Scan.nameEnd s.toList = some []

instance (s : String) : Decidable (IsWord s) :=
  inferInstanceAs (Decidable (_ = _))

theorem not_mem_of_wordEnd {cs : List Char} (h : Scan.wordEnd cs = some []) {c : Char}
    (hstart : isIdentStart c = false) (hcontinue : isIdentContinue c = false) : c ∉ cs := by
  intro member
  cases cs with
  | nil => simp at member
  | cons first rest =>
      simp only [Scan.wordEnd, Option.ite_none_right_eq_some, Option.some.injEq,
        List.dropWhile_eq_nil_iff] at h
      rcases List.mem_cons.mp member with rfl | member
      · simp [h.1] at hstart
      · simp [h.2 c member] at hcontinue

theorem exists_of_afterText {text cs rest : List Char} (h : Scan.afterText text cs = some rest) :
    cs = text ++ rest := by
  fun_induction Scan.afterText text cs with
  | case1 cs => simpa using h
  | case2 => simp at h
  | case3 p ps cs ih => simp [ih h]
  | case4 => simp at h

/-- A word holds no character that ends one, the mark of raw names apart. -/
theorem IsWord.not_mem {s : String} (h : IsWord s) {c : Char} (hstart : isIdentStart c = false)
    (hcontinue : isIdentContinue c = false) (hmark : c ≠ '#') : c ∉ s.toList := by
  unfold IsWord Scan.nameEnd at h
  split at h
  · next hraw =>
      obtain ⟨body, hbody⟩ := Option.isSome_iff_exists.mp hraw
      obtain ⟨hword, _⟩ := Option.filter_eq_some_iff.mp h
      have hr : c ≠ 'r' := by
        rintro rfl
        simp [show isIdentStart 'r' = true by decide] at hstart
      have hplain := not_mem_of_wordEnd hword hstart hcontinue
      rw [exists_of_afterText hbody] at hplain ⊢
      simpa [hr, hmark] using hplain
  · exact not_mem_of_wordEnd h hstart hcontinue

theorem IsWord.toList_ne_nil {s : String} (h : IsWord s) : s.toList ≠ [] := by
  intro hnil
  rw [IsWord, hnil] at h
  exact absurd h (by decide)

/-- A word can be told from the words beside it by the colons between them. -/
theorem IsWord.ne_empty_and_not_mem {s : String} (h : IsWord s) : s ≠ "" ∧ ':' ∉ s.toList :=
  ⟨fun hempty => h.toList_ne_nil (String.toList_eq_nil_iff.mpr hempty),
    h.not_mem (by decide) (by decide) (by decide)⟩

end Text

namespace GeneratedText

/-- The lines of a text, each up to its line break. -/
def splitLines : List Char → List (List Char)
  | [] => []
  | c :: cs =>
    if c = '\n' then [] :: splitLines cs
    else match splitLines cs with
      | [] => [[c]]
      | line :: lines => (c :: line) :: lines

/-- The stretches of a text between double colons. -/
def splitColons : List Char → List (List Char)
  | [] => [[]]
  | ':' :: ':' :: cs => [] :: splitColons cs
  | c :: cs =>
    match splitColons cs with
    | [] => [[c]]
    | part :: parts => (c :: part) :: parts

/-- The path that is written so. The path without names is written as nothing. -/
def pathOf (cs : List Char) : ItemPath :=
  if cs = [] then ⟨[]⟩ else ⟨(splitColons cs).map String.ofList⟩

/-- What stands between two fixed texts that a line begins and ends with. -/
def between? (before after : String) (line : List Char) : Option (List Char) :=
  (before.toList.isPrefixOf? line).bind (after.toList.isSuffixOf? ·)

/-- What the text tells of one constant: the marker that its documentation names, its own name, and
the names on its list. -/
structure Constant where
  marker : ItemPath
  name : String
  names : List String
  deriving DecidableEq

def markerOf? (line : List Char) : Option ItemPath :=
  (between? "        /// Registration names of functions marked `#[" "]`." line).map pathOf

def opening : String := "        pub const "

/-- The name of a constant with an empty list. -/
def emptyOf? (line : List Char) : Option String :=
  (between? opening ": &'static [&'static str] = &[];" line).map String.ofList

/-- The name of a constant whose list begins on the next line. -/
def openOf? (line : List Char) : Option String :=
  (between? opening ": &'static [&'static str] = &[" line).map String.ofList

/-- The value of a text literal on a line of its own. -/
def nameOf? (line : List Char) : Option String :=
  (between? "            " "," line).bind fun literal =>
    (Text.Quoted.decodeChars literal).map String.ofList

/-- The line that closes a list. -/
def closing : String := "        ];"

/-- Where the reader stands. -/
inductive Mode
  /-- Before the documentation of a constant. -/
  | documentation
  /-- Before the line that opens a constant. -/
  | constant (marker : ItemPath)
  /-- Among the names on a list, with those found so far. -/
  | list (marker : ItemPath) (name : String) (found : List String)
  /-- Behind a constant. -/
  | behind
  /-- Behind the last constant. -/
  | closing
  | closed

/-- The constants that the lines tell of. Lines that are not laid out like this are refused. -/
def readLines (mode : Mode) : List (List Char) → Option (List Constant)
  | [] =>
    match mode with
    | .closed => some []
    | _ => none
  | line :: rest =>
    match mode with
    | .documentation => (markerOf? line).bind fun marker => readLines (.constant marker) rest
    | .constant marker =>
      match emptyOf? line with
      | some name => (readLines .behind rest).map (⟨marker, name, []⟩ :: ·)
      | none => (openOf? line).bind fun name => readLines (.list marker name []) rest
    | .list marker name found =>
      if line = closing.toList then
        (readLines .behind rest).map (⟨marker, name, found⟩ :: ·)
      else (nameOf? line).bind fun next => readLines (.list marker name (found ++ [next])) rest
    | .behind =>
      if line = [] then readLines .documentation rest
      else if line = "    \x7d".toList then readLines .closing rest
      else none
    | .closing => if line = "\x7d".toList then readLines .closed rest else none
    | .closed => none

/-- Reads a generated text, of which so many lines stand in front of the constants. -/
def read (skip : Nat) (text : String) : Option (List Constant) :=
  readLines .documentation ((splitLines text.toList).drop skip)

theorem splitLines_line {line : List Char} (h : '\n' ∉ line) (rest : List Char) :
    splitLines (line ++ '\n' :: rest) = line :: splitLines rest := by
  induction line with
  | nil => simp [splitLines]
  | cons c line ih =>
      obtain ⟨hc, hline⟩ : '\n' ≠ c ∧ '\n' ∉ line := by simpa using h
      simp [splitLines, Ne.symm hc, ih hline]

/-- As many lines end in a text as there are line breaks. -/
theorem drop_splitLines (before rest : List Char) :
    (splitLines (before ++ '\n' :: rest)).drop (before.count '\n' + 1) = splitLines rest := by
  induction before with
  | nil => simp [splitLines]
  | cons c before ih =>
      by_cases hc : c = '\n'
      · subst hc
        simpa [splitLines] using ih
      · rw [List.count_cons_of_ne hc, List.cons_append, splitLines, if_neg hc]
        cases hsplit : splitLines (before ++ '\n' :: rest) with
        | nil => simpa [hsplit] using ih
        | cons line lines => simpa [hsplit] using ih

theorem toList_join_cons (line : String) (lines : List String) :
    (Emission.join (line :: lines)).toList =
      line.toList ++ '\n' :: (Emission.join lines).toList := by
  simp [Emission.join]

theorem splitLines_join {lines : List String} (h : ∀ line ∈ lines, '\n' ∉ line.toList) :
    splitLines (Emission.join lines).toList = lines.map String.toList := by
  induction lines with
  | nil => simp [Emission.join, splitLines]
  | cons line lines ih =>
      obtain ⟨hline, hlines⟩ := List.forall_mem_cons.mp h
      rw [toList_join_cons, splitLines_line hline, ih hlines, List.map_cons]

/-- A character that is no colon goes to the front of the first stretch. -/
theorem splitColons_cons {c : Char} (hc : ':' ≠ c) {cs part : List Char} {parts : List (List Char)}
    (h : splitColons cs = part :: parts) : splitColons (c :: cs) = (c :: part) :: parts := by
  rw [splitColons, h]
  rintro _ rfl
  exact absurd rfl hc

theorem splitColons_name {name : List Char} (h : ':' ∉ name) : splitColons name = [name] := by
  induction name with
  | nil => rfl
  | cons c name ih =>
      obtain ⟨hc, hname⟩ : ':' ≠ c ∧ ':' ∉ name := by simpa using h
      exact splitColons_cons hc (ih hname)

theorem splitColons_append {name : List Char} (h : ':' ∉ name) (rest : List Char) :
    splitColons (name ++ ':' :: ':' :: rest) = name :: splitColons rest := by
  induction name with
  | nil => simp [splitColons]
  | cons c name ih =>
      obtain ⟨hc, hname⟩ : ':' ≠ c ∧ ':' ∉ name := by simpa using h
      exact splitColons_cons hc (ih hname)

theorem splitColons_intercalate {names : List (List Char)} (hne : names ≠ [])
    (h : ∀ name ∈ names, ':' ∉ name) : splitColons ([':', ':'].intercalate names) = names := by
  induction names with
  | nil => exact absurd rfl hne
  | cons name names ih =>
      obtain ⟨hname, hnames⟩ := List.forall_mem_cons.mp h
      cases names with
      | nil => simpa using splitColons_name hname
      | cons next names =>
          rw [List.intercalate_cons_cons, List.append_assoc, List.cons_append,
            List.singleton_append, splitColons_append hname, ih (by simp) hnames]

/-- Segments without colons are kept apart by the colons between them. -/
theorem pathOf_display {p : ItemPath} (h : ∀ name ∈ p.segments, name ≠ "" ∧ ':' ∉ name.toList) :
    pathOf p.display.toList = p := by
  obtain ⟨segments⟩ := p
  have hcolon : ∀ name ∈ segments.map String.toList, ':' ∉ name := by
    intro name member
    obtain ⟨word, hword, rfl⟩ := List.mem_map.mp member
    exact (h word hword).2
  by_cases hempty : segments = []
  · subst hempty
    rfl
  · have hdisplay : (ItemPath.mk segments).display.toList =
        [':', ':'].intercalate (segments.map String.toList) := String.toList_intercalate
    have hsplit := splitColons_intercalate (by simpa using hempty) hcolon
    have hne : (ItemPath.mk segments).display.toList ≠ [] := by
      intro hnil
      rw [← hdisplay, hnil] at hsplit
      have hblank : [] ∈ segments.map String.toList := by simp [← hsplit, splitColons]
      obtain ⟨word, member, hword⟩ := List.mem_map.mp hblank
      exact (h word member).1 (String.toList_eq_nil_iff.mp hword)
    rw [pathOf, if_neg hne, hdisplay, hsplit]
    simp [Function.comp_def]

theorem between?_eq (before after : String) (line : List Char) :
    between? before after (before.toList ++ line ++ after.toList) = some line := by
  have hprefix : before.toList.isPrefixOf? (before.toList ++ line ++ after.toList) =
      some (line ++ after.toList) := by
    rw [List.isPrefixOf?_eq_some_iff_append_eq, List.append_assoc]
  rw [between?, hprefix, Option.bind_some, List.isSuffixOf?_eq_some_iff_append_eq]

theorem eq_of_between? {before after : String} {line found : List Char}
    (h : between? before after line = some found) :
    line = before.toList ++ found ++ after.toList := by
  obtain ⟨rest, hprefix, hsuffix⟩ := Option.bind_eq_some_iff.mp h
  rw [← List.isPrefixOf?_eq_some_iff_append_eq.mp hprefix,
    ← List.isSuffixOf?_eq_some_iff_append_eq.mp hsuffix, List.append_assoc]

/-- What a constant has to be read as. -/
def constantOf (e : ListEntry) : Constant :=
  ⟨e.marker, e.bindingName, e.names⟩

theorem markerOf?_line {e : ListEntry} (h : ∀ name ∈ e.marker.segments, Text.IsWord name) :
    markerOf? (Emission.indent 2 ("/// Registration names of functions marked `#[" ++
      e.marker.display ++ "]`.")).toList = some e.marker := by
  have hline : (Emission.indent 2 ("/// Registration names of functions marked `#[" ++
      e.marker.display ++ "]`.")).toList =
      "        /// Registration names of functions marked `#[".toList ++ e.marker.display.toList ++
        "]`.".toList := by
    simp [Emission.indent]
  rw [markerOf?, hline, between?_eq, Option.map_some,
    pathOf_display fun name member => (h name member).ne_empty_and_not_mem]

theorem nameOf?_line (name : String) :
    nameOf? (Emission.indent 3 (Text.Quoted.encode name ++ ",")).toList = some name := by
  have hline : (Emission.indent 3 (Text.Quoted.encode name ++ ",")).toList =
      "            ".toList ++ Text.Quoted.encodeChars name.toList ++ ",".toList := by
    simp [Emission.indent, Text.Quoted.encode]
  rw [nameOf?, hline, between?_eq, Option.bind_some, Text.Quoted.decodeChars_encodeChars]
  simp

/-- The line of a name is not the line that closes a list, however the name begins. -/
theorem nameLine_ne_closing (name : String) :
    (Emission.indent 3 (Text.Quoted.encode name ++ ",")).toList ≠ closing.toList := by
  simp [Emission.indent, closing]

theorem emptyOf?_line (name : String) :
    emptyOf? (Emission.indent 2 ("pub const " ++ name ++
      ": &'static [&'static str] = &[") ++ "];").toList = some name := by
  have hline : (Emission.indent 2 ("pub const " ++ name ++
      ": &'static [&'static str] = &[") ++ "];").toList =
      opening.toList ++ name.toList ++ ": &'static [&'static str] = &[];".toList := by
    simp [Emission.indent, opening]
  rw [emptyOf?, hline, between?_eq]
  simp

/-- The line that opens a list is not taken for one that closes it as well. -/
theorem openOf?_line (name : String) :
    let line := (Emission.indent 2 ("pub const " ++ name ++
      ": &'static [&'static str] = &[")).toList
    openOf? line = some name ∧ emptyOf? line = none := by
  intro line
  have hline : line =
      opening.toList ++ name.toList ++ ": &'static [&'static str] = &[".toList := by
    simp [line, Emission.indent, opening]
  constructor
  · rw [openOf?, hline, between?_eq]
    simp
  · rw [emptyOf?, Option.map_eq_none_iff, Option.eq_none_iff_forall_ne_some]
    intro found hfound
    have hlast := congrArg List.getLast? (hline.symm.trans (eq_of_between? hfound))
    simp at hlast

/-- The names of a list are read one after another, up to the line that closes it. -/
theorem readLines_names (marker : ItemPath) (name : String) (found names : List String)
    (rest : List (List Char)) :
    readLines (.list marker name found)
        (names.map (fun name => (Emission.indent 3 (Text.Quoted.encode name ++ ",")).toList) ++
          (Emission.indent 2 "];").toList :: rest) =
      (readLines .behind rest).map (⟨marker, name, found ++ names⟩ :: ·) := by
  induction names generalizing found with
  | nil =>
      have hclosing : (Emission.indent 2 "];").toList = closing.toList := by
        simp [Emission.indent, closing]
      rw [List.map_nil, List.nil_append, hclosing, readLines, if_pos rfl, List.append_nil]
  | cons next names ih =>
      simp only [List.map_cons, List.cons_append, readLines, nameLine_ne_closing, ↓reduceIte,
        nameOf?_line, Option.bind_some]
      rw [ih]
      simp

theorem readLines_entry {e : ListEntry} (h : ∀ name ∈ e.marker.segments, Text.IsWord name)
    (rest : List (List Char)) :
    readLines .documentation ((Emission.entryLines e).map String.toList ++ rest) =
      (readLines .behind rest).map (constantOf e :: ·) := by
  obtain ⟨hopen, hnotEmpty⟩ := openOf?_line e.bindingName
  cases hnames : e.names with
  | nil =>
      simp only [Emission.entryLines, hnames, List.isEmpty_nil, ↓reduceIte, List.map_cons,
        List.map_nil, List.cons_append, List.nil_append, readLines, markerOf?_line h,
        Option.bind_some, emptyOf?_line, constantOf]
  | cons name names =>
      have hlines : (Emission.entryLines e).map String.toList ++ rest =
          (Emission.indent 2 ("/// Registration names of functions marked `#[" ++
            e.marker.display ++ "]`.")).toList ::
          (Emission.indent 2 ("pub const " ++ e.bindingName ++
            ": &'static [&'static str] = &[")).toList ::
          (e.names.map (fun name => (Emission.indent 3 (Text.Quoted.encode name ++ ",")).toList) ++
            (Emission.indent 2 "];").toList :: rest) := by
        simp [Emission.entryLines, hnames, Function.comp_def]
      rw [hlines, readLines, markerOf?_line h, Option.bind_some, readLines]
      simp only [hnotEmpty, hopen, Option.bind_some]
      exact readLines_names e.marker e.bindingName [] e.names rest

/-- The lines in front of the constants. -/
def frontLines (s : Emission) : List String :=
  [Emission.header, "", "pub mod " ++ s.module ++ " \x7b",
    Emission.indent 1 ("pub struct " ++ s.container ++ ";"), "",
    Emission.indent 1 "#[allow(non_upper_case_globals)]",
    Emission.indent 1 ("impl " ++ s.container ++ " \x7b")]

/-- How many lines of the text stand in front of the constants. Names of a module or a type that
hold line breaks make more of them. -/
def frontLength (s : Emission) : Nat :=
  s.module.toList.count '\n' + 2 * s.container.toList.count '\n' + 7

theorem bodyLines_cons (e next : ListEntry) (entries : List ListEntry) :
    Emission.bodyLines (e :: next :: entries) =
      Emission.entryLines e ++ "" :: Emission.bodyLines (next :: entries) := by
  simp [Emission.bodyLines]

/-- The lines of the constants are read back one constant after another, up to the closing braces.
-/
theorem readLines_body {entries : List ListEntry} (hne : entries ≠ [])
    (h : ∀ e ∈ entries, ∀ name ∈ e.marker.segments, Text.IsWord name) :
    readLines .documentation
        ((Emission.bodyLines entries ++ [Emission.indent 1 "\x7d", "\x7d"]).map String.toList) =
      some (entries.map constantOf) := by
  induction entries with
  | nil => exact absurd rfl hne
  | cons e entries ih =>
      obtain ⟨he, hentries⟩ := List.forall_mem_cons.mp h
      cases entries with
      | nil =>
          have hclosing : (Emission.indent 1 "\x7d").toList = "    \x7d".toList := by
            simp [Emission.indent]
          have hbody : Emission.bodyLines [e] = Emission.entryLines e := by
            simp [Emission.bodyLines]
          rw [hbody, List.map_append, readLines_entry he]
          simp [readLines, hclosing]
      | cons next entries =>
          rw [bodyLines_cons, List.append_assoc, List.map_append, readLines_entry he,
            List.cons_append, List.map_cons]
          simp only [readLines, String.toList_empty, ↓reduceIte]
          rw [ih (by simp) hentries]
          simp

theorem not_mem_intercalate {α : Type} {x : α} {between : List α} {lists : List (List α)}
    (hbetween : x ∉ between) (h : ∀ list ∈ lists, x ∉ list) : x ∉ between.intercalate lists := by
  induction lists with
  | nil => simp
  | cons list lists ih =>
      obtain ⟨hlist, hlists⟩ := List.forall_mem_cons.mp h
      cases lists with
      | nil => simpa using hlist
      | cons next lists =>
          rw [List.intercalate_cons_cons]
          simp [hlist, hbetween, ih hlists]

/-- A path of words holds no character that parts words, the colons between them apart. -/
theorem not_mem_display {p : ItemPath} (h : ∀ name ∈ p.segments, Text.IsWord name) {c : Char}
    (hstart : Text.isIdentStart c = false) (hcontinue : Text.isIdentContinue c = false)
    (hmark : c ≠ '#') (hcolon : c ≠ ':') : c ∉ p.display.toList := by
  rw [ItemPath.display, String.toList_intercalate]
  refine not_mem_intercalate (by simp [hcolon]) ?_
  simpa using fun name member => (h name member).not_mem hstart hcontinue hmark

/-- Neither a marker nor a name can break a line of the layout. -/
theorem entryLines_no_lineBreak {e : ListEntry}
    (h : ∀ name ∈ e.marker.segments, Text.IsWord name) :
    ∀ line ∈ Emission.entryLines e, '\n' ∉ line.toList := by
  have hword : ∀ name ∈ e.marker.segments, '\n' ∉ name.toList :=
    fun name member => (h name member).not_mem (by decide) (by decide) (by decide)
  have hdisplay : '\n' ∉ e.marker.display.toList :=
    not_mem_display h (by decide) (by decide) (by decide) (by decide)
  have hname : '\n' ∉ e.bindingName.toList := by
    rw [ListEntry.bindingName, ItemPath.simpleName]
    cases hlast : e.marker.segments.getLast? with
    | none => simp
    | some last => exact hword last (List.mem_of_getLast? hlast)
  have hliteral (name : String) : '\n' ∉ (Text.Quoted.encode name).toList := by
    simpa [Text.Quoted.encode] using (Text.Quoted.encodeChars_no_lineBreak name.toList).1
  intro line member
  unfold Emission.entryLines at member
  cases hnames : e.names with
  | nil =>
      simp only [hnames, List.isEmpty_nil, ↓reduceIte, List.mem_cons, List.not_mem_nil,
        or_false] at member
      rcases member with rfl | rfl <;> simp [Emission.indent, hdisplay, hname]
  | cons first names =>
      simp only [hnames, List.isEmpty_cons, Bool.false_eq_true, ↓reduceIte, List.mem_cons,
        List.mem_append, List.mem_map, List.not_mem_nil, or_false] at member
      rcases member with rfl | (rfl | ⟨name, _, rfl⟩) | rfl <;>
        simp [Emission.indent, hdisplay, hname, hliteral]

theorem bodyLines_no_lineBreak {entries : List ListEntry}
    (h : ∀ e ∈ entries, ∀ name ∈ e.marker.segments, Text.IsWord name) :
    ∀ line ∈ Emission.bodyLines entries, '\n' ∉ line.toList := by
  induction entries with
  | nil => simp [Emission.bodyLines]
  | cons e entries ih =>
      obtain ⟨he, hentries⟩ := List.forall_mem_cons.mp h
      cases entries with
      | nil =>
          simpa [Emission.bodyLines] using entryLines_no_lineBreak he
      | cons next entries =>
          intro line member
          rw [bodyLines_cons, List.mem_append, List.mem_cons] at member
          rcases member with member | rfl | member
          · exact entryLines_no_lineBreak he line member
          · simp
          · exact ih hentries line member

/-- Each line ends in a line break, and may hold others. -/
theorem count_join_cons (line : String) (lines : List String) :
    (Emission.join (line :: lines)).toList.count '\n' =
      line.toList.count '\n' + (Emission.join lines).toList.count '\n' + 1 := by
  rw [toList_join_cons, List.count_append, List.count_cons_self, Nat.add_assoc]

theorem count_indent (depth : Nat) (line : String) :
    (Emission.indent depth line).toList.count '\n' = line.toList.count '\n' := by
  simp [Emission.indent, List.count_replicate]

/-- The front of the text ends in a line break, and has as many of them as lines are passed over. -/
theorem exists_front (s : Emission) : ∃ front : List Char,
    (Emission.join (frontLines s)).toList = front ++ ['\n'] ∧
      front.count '\n' + 1 = frontLength s := by
  refine ⟨(Emission.join (frontLines s).dropLast).toList ++
    (Emission.indent 1 ("impl " ++ s.container ++ " \x7b")).toList, ?_, ?_⟩
  · simp [frontLines, Emission.join]
  · have hmodule : ("pub mod " ++ s.module ++ " \x7b").toList.count '\n' =
        s.module.toList.count '\n' := by
      simp
    have htype : ("pub struct " ++ s.container ++ ";").toList.count '\n' =
        s.container.toList.count '\n' := by
      simp
    have himpl : ("impl " ++ s.container ++ " \x7b").toList.count '\n' =
        s.container.toList.count '\n' := by
      simp
    have hallow : "#[allow(non_upper_case_globals)]".toList.count '\n' = 0 := by decide
    have hheader : Emission.header.toList.count '\n' = 0 := by decide
    have hempty : "".toList.count '\n' = 0 := rfl
    have hnone : (Emission.join []).toList.count '\n' = 0 := rfl
    simp only [frontLines, List.dropLast, List.count_append, count_join_cons, count_indent, hmodule,
      htype, himpl, hallow, hheader, hempty, hnone, frontLength]
    omega

/-- The lines of the constants are read off the text, whatever stands in front of them. -/
theorem read_join (s : Emission) {entries : List ListEntry} (hne : entries ≠ [])
    (h : ∀ e ∈ entries, ∀ name ∈ e.marker.segments, Text.IsWord name) :
    read (frontLength s) (Emission.join (s.lines entries)) = some (entries.map constantOf) := by
  obtain ⟨front, hfront, hlength⟩ := exists_front s
  have htext : (Emission.join (s.lines entries)).toList = front ++ '\n' ::
      (Emission.join (Emission.bodyLines entries ++
        [Emission.indent 1 "\x7d", "\x7d"])).toList := by
    have hlines : s.lines entries = frontLines s ++
        (Emission.bodyLines entries ++ [Emission.indent 1 "\x7d", "\x7d"]) := by
      simp [Emission.lines, frontLines]
    calc (Emission.join (s.lines entries)).toList
        = (Emission.join (frontLines s)).toList ++ (Emission.join (Emission.bodyLines entries ++
            [Emission.indent 1 "\x7d", "\x7d"])).toList := by
          rw [hlines, Emission.join, List.map_append, String.join_append, String.toList_append]
          rfl
      _ = _ := by rw [hfront, List.append_assoc, List.singleton_append]
  have hbreaks : ∀ line ∈ Emission.bodyLines entries ++ [Emission.indent 1 "\x7d", "\x7d"],
      '\n' ∉ line.toList := by
    intro line member
    rcases List.mem_append.mp member with member | member
    · exact bodyLines_no_lineBreak h line member
    · simp only [List.mem_cons, List.not_mem_nil, or_false] at member
      rcases member with rfl | rfl <;> simp [Emission.indent]
  rw [read, htext, ← hlength, drop_splitLines, splitLines_join hbreaks]
  exact readLines_body hne h

theorem constantOf_injective : Function.Injective constantOf := by
  rintro ⟨marker, names⟩ ⟨marker', names'⟩ h
  simp only [constantOf, Constant.mk.injEq] at h
  obtain ⟨rfl, _, rfl⟩ := h
  rfl

end GeneratedText

namespace Classification

/-- Markers consist of names and keywords, and no two constants have the same name. -/
structure WellNamed (c : Classification) : Prop where
  words : ∀ e ∈ c.entries, ∀ name ∈ e.marker.segments, Text.IsWord name
  distinct : (c.entries.map (·.bindingName)).Nodup

/-- Where all constants have names of their own, there is a text. -/
theorem WellNamed.emit_eq {c : Classification} (named : c.WellNamed) (hne : c.entries ≠ [])
    (s : Emission) : s.emit c = .ok (some (Emission.join (s.lines c.entries))) := by
  have hagree : Emission.NamesAgree c.entries := by
    have hpair := List.pairwise_map.mp named.distinct
    exact hpair.imp fun hne heq => absurd heq hne
  exact (Emission.emit_eq_some_iff s c _).mpr ⟨hne, hagree, rfl⟩

end Classification

namespace GeneratedText

/-- For every name of the module and of the type there is a text, and reading it line by line gives
back each constant with its marker, its name and its list. So no other classification has this text,
under whatever names that leave the constants on the same lines. -/
theorem read_emit (s : Emission) {c : Classification} (hne : c.entries ≠ []) (named : c.WellNamed) :
    ∃ text, s.emit c = .ok (some text) ∧
      read (frontLength s) text = some (c.entries.map constantOf) ∧
      ∀ (other : Emission) (d : Classification), d.WellNamed →
        frontLength other = frontLength s → other.emit d = .ok (some text) → d = c := by
  refine ⟨_, named.emit_eq hne s, read_join s hne named.words, ?_⟩
  intro other d namedOther hfront hemit
  have hneOther : d.entries ≠ [] := by
    intro hempty
    simp [Emission.emit, Classification.isEmpty, hempty] at hemit
  rw [namedOther.emit_eq hneOther other] at hemit
  have hread := read_join other hneOther namedOther.words
  rw [hfront, Option.some.inj (Except.ok.inj hemit), read_join s hne named.words] at hread
  have hentries := List.map_injective_iff.mpr constantOf_injective (Option.some.inj hread)
  cases c
  cases d
  simp_all

/-- Names that imitate the layout, names with all kinds of escapes, a name that occurs twice, an
empty list, and a module whose name breaks its line. -/
def awkward : Classification :=
  ⟨[⟨⟨["crate", "markers", "r#type"]⟩,
    ["\n        ];\n    \x7d\n\x7d", "        ];", "\\", "\"", "\""]⟩, ⟨⟨["dep", "Empty"]⟩, []⟩,
    ⟨⟨["crate", "Last"]⟩, ["", "\x00\t\r", "é\u0301", "\u2028"]⟩]⟩

theorem read_emit_awkward : awkward.entries ≠ [] ∧ awkward.WellNamed ∧
    ∃ text, Emission.emit ⟨"a\nb", "T"⟩ awkward = .ok (some text) ∧
      read 8 text = some (awkward.entries.map constantOf) := by
  have hne : awkward.entries ≠ [] := by decide
  have named : awkward.WellNamed := ⟨by decide, by decide⟩
  obtain ⟨text, hemit, hread, _⟩ := read_emit ⟨"a\nb", "T"⟩ hne named
  exact ⟨hne, named, text, hemit, hread⟩

end GeneratedText

end MarkerIndex
