import MarkerIndex.Proofs.GeneratedText
import MarkerIndex.Proofs.TextTokens
/-!
The generated text as token trees. Where markers are spelled in words, and the module and the type
have words for names, the text is cut into exactly the trees of one module with one type and the
constants.
-/

namespace MarkerIndex

open Scan Text

namespace TokenTree

def word (text : String) : TokenTree := .leaf .first (.word text)

def literal (text : String) : TokenTree := .leaf .first (.literal text)

/-- A punctuation mark that is not joined to what follows it. -/
def mark (c : Char) : TokenTree := .leaf .first (.punct c false)

/-- A punctuation mark that is joined to what follows it. -/
def joined (c : Char) : TokenTree := .leaf .first (.punct c true)

def bracketed (delimiter : Delimiter) (content : List TokenTree) : TokenTree :=
  .group delimiter .first .first content

end TokenTree

namespace Emission

open TokenTree

/-- The type of a constant. -/
def typeTrees : List TokenTree :=
  [joined '&', joined '\'', word "static",
    bracketed .bracket [joined '&', joined '\'', word "static", word "str"]]

/-- The names on a list, each with a comma behind it. -/
def nameTrees (names : List String) : List TokenTree :=
  names.flatMap fun name => [literal (Quoted.encode name), mark ',']

/-- A constant from its name on. -/
def constantTrees (e : ListEntry) : List TokenTree :=
  [word e.bindingName, mark ':'] ++ typeTrees ++
    [mark '=', mark '&', bracketed .bracket (nameTrees e.names), mark ';']

def entryTrees (e : ListEntry) : List TokenTree :=
  ofDoc .first .first false
      (" Registration names of functions marked `#[" ++ e.marker.display ++ "]`.") ++
    [word "pub", word "const"] ++ constantTrees e

/-- The type with its constants. -/
def contentTrees (container : String) (entries : List ListEntry) : List TokenTree :=
  [word "pub", word "struct", word container, mark ';', mark '#',
    bracketed .bracket [word "allow", bracketed .parenthesis [word "non_upper_case_globals"]],
    word "impl", word container, bracketed .brace (entries.flatMap entryTrees)]

def trees (s : Emission) (entries : List ListEntry) : List TokenTree :=
  [word "pub", word "mod", word s.module, bracketed .brace (contentTrees s.container entries)]

/-- A list as it is written, from its bracket to the end of its last line. -/
def listText (names : List String) : String :=
  if names.isEmpty then "[];"
  else "[\n" ++ join (names.map fun name => indent 3 (Quoted.encode name ++ ",")) ++ "        ];"

theorem exists_listText (names : List String) : ∃ tail, (listText names).toList = '[' :: tail := by
  cases hnames : names with
  | nil => exact ⟨_, rfl⟩
  | cons name more => exact ⟨_, by simp [listText]; rfl⟩

end Emission

namespace TokenTree.Cuts

variable {cs ahead rest blank : List Char} {more : List TokenTree}

theorem cons {t : TokenTree} (h : Cuts cs ahead [t]) (hmore : Cuts ahead rest more) :
    Cuts cs rest (t :: more) :=
  h.append hmore

/-- Behind a blank. -/
theorem skipped_blank : Skipped [' '] := Skipped.spaces " " (by decide)

theorem skipped_nil : Skipped [] := fun _ => rfl

/-- A character parts a word from what follows. -/
theorem parts_cons {c : Char} (h : isIdentContinue c = false ∧ c ≠ '"' ∧ c ≠ '\'' ∧ c ≠ '#')
    (rest : List Char) : Parts (c :: rest) := h

theorem reference (hblank : Skipped blank) (rest : List Char) :
    Cuts (blank ++ ("&'static ".toList ++ rest)) (' ' :: rest)
      [joined '&', joined '\'', word "static"] := by
  have hand : Cuts (blank ++ ("&'static ".toList ++ rest)) ("'static ".toList ++ rest)
      [joined '&'] :=
    ofLeaf hblank rfl (by decide) rfl rfl rfl (by simp)
  have hquote : Cuts ("'static ".toList ++ rest) ("static ".toList ++ rest) [joined '\''] :=
    ofLeaf skipped_nil rfl (by decide) rfl rfl rfl (by simp)
  have hword : Cuts ("static".toList ++ ' ' :: rest) (' ' :: rest) [word "static"] :=
    ofWord skipped_nil (by decide) (parts_cons (by decide) rest)
  exact (hand.cons hquote).append hword

theorem typeTrees (rest : List Char) :
    Cuts (" &'static [&'static str]".toList ++ rest) rest Emission.typeTrees := by
  have houter : Cuts (" &'static [&'static str]".toList ++ rest) (" [&'static str]".toList ++ rest)
      [joined '&', joined '\'', word "static"] :=
    reference skipped_blank ("[&'static str]".toList ++ rest)
  have hinner : Cuts ("&'static str]".toList ++ rest) (" str]".toList ++ rest)
      [joined '&', joined '\'', word "static"] :=
    reference skipped_nil ("str]".toList ++ rest)
  have hword : Cuts (" str]".toList ++ rest) (']' :: rest) [word "str"] :=
    ofWord skipped_blank (by decide) (parts_cons (by decide) rest)
  have hslice : Cuts (" [&'static str]".toList ++ rest) rest
      [bracketed .bracket [joined '&', joined '\'', word "static", word "str"]] :=
    ofBrackets skipped_blank rfl rfl skipped_nil (hinner.append hword)
  exact houter.append hslice

/-- The names of a list, each on a line of its own. -/
theorem nameTrees (names : List String) (rest : List Char) :
    Cuts ('\n' :: ((Emission.join (names.map fun name =>
      Emission.indent 3 (Quoted.encode name ++ ","))).toList ++ rest)) ('\n' :: rest)
      (Emission.nameTrees names) := by
  induction names with
  | nil => exact nil
  | cons name names ih =>
      let after := (Emission.join (names.map fun name =>
        Emission.indent 3 (Quoted.encode name ++ ","))).toList ++ rest
      have hcs : '\n' :: ((Emission.join ((name :: names).map fun name =>
            Emission.indent 3 (Quoted.encode name ++ ","))).toList ++ rest) =
          "\n            ".toList ++ ((Quoted.encode name).toList ++ ',' :: '\n' :: after) := by
        simp [after, GeneratedText.toList_join_cons, Emission.indent]
      have hname :
          Cuts ("\n            ".toList ++ ((Quoted.encode name).toList ++ ',' :: '\n' :: after))
          (',' :: '\n' :: after) [literal (Quoted.encode name)] :=
        ofQuoted (Skipped.spaces "\n            " (by decide)) name rfl
      have hcomma : Cuts (',' :: '\n' :: after) ('\n' :: after) [mark ','] :=
        ofLeaf skipped_nil rfl (by decide) rfl rfl rfl (by simp)
      rw [hcs]
      exact (hname.cons hcomma).append ih

/-- The list of a constant, to the end of its last line. -/
theorem listTrees (names : List String) (rest : List Char) :
    Cuts ((Emission.listText names).toList ++ '\n' :: rest) ('\n' :: rest)
      [bracketed .bracket (Emission.nameTrees names), mark ';'] := by
  have hend : Cuts (';' :: '\n' :: rest) ('\n' :: rest) [mark ';'] :=
    ofLeaf skipped_nil rfl (by decide) rfl rfl rfl (by simp)
  have hlist : Cuts ((Emission.listText names).toList ++ '\n' :: rest) (';' :: '\n' :: rest)
      [bracketed .bracket (Emission.nameTrees names)] := by
    cases hnames : names with
    | nil =>
        have hnone : Cuts ("];".toList ++ '\n' :: rest) ("];".toList ++ '\n' :: rest) [] := nil
        exact ofBrackets skipped_nil rfl rfl skipped_nil hnone
    | cons name more =>
        rw [← hnames]
        have hcs : (Emission.listText names).toList ++ '\n' :: rest =
            '[' :: '\n' :: ((Emission.join (names.map fun name =>
              Emission.indent 3 (Quoted.encode name ++ ","))).toList ++
                ("        ];".toList ++ '\n' :: rest)) := by
          simp [Emission.listText, hnames]
        rw [hcs]
        exact ofBrackets skipped_nil rfl rfl (Skipped.spaces "\n        " (by decide))
          (nameTrees names _)
  exact hlist.append hend

theorem toList_join_entryLines (e : ListEntry) : (Emission.join (Emission.entryLines e)).toList =
    "        ///".toList ++ ((" Registration names of functions marked `#[" ++ e.marker.display ++
      "]`.").toList ++ '\n' :: ("        pub const ".toList ++ (e.bindingName.toList ++
        (": &'static [&'static str] = &".toList ++
          ((Emission.listText e.names).toList ++ ['\n']))))) := by
  cases hnames : e.names with
  | nil => simp [Emission.entryLines, Emission.listText, Emission.join, Emission.indent, hnames]
  | cons name names =>
      simp [Emission.entryLines, Emission.listText, Emission.join, Emission.indent, hnames]

theorem unplacedAll_ofDoc (text : String) :
    unplacedAll (ofDoc .first .first false text) = ofDoc .first .first false text :=
  rfl

/-- What is declared by a keyword is visible and has a name. -/
theorem declared (hblank : Skipped blank) {keyword name : String} (hkeyword : IsWord keyword)
    (hname : IsWord name) (hrest : Parts rest) :
    Cuts (blank ++ ("pub".toList ++ ' ' :: (keyword.toList ++ ' ' :: (name.toList ++ rest)))) rest
      [word "pub", word keyword, word name] := by
  let named := name.toList ++ rest
  have hpub : Cuts (blank ++ ("pub".toList ++ ' ' :: (keyword.toList ++ ' ' :: named)))
      (' ' :: (keyword.toList ++ ' ' :: named)) [word "pub"] :=
    ofWord hblank (by decide) (parts_cons (by decide) _)
  have hconst : Cuts (' ' :: (keyword.toList ++ ' ' :: named)) (' ' :: named) [word keyword] :=
    ofWord skipped_blank hkeyword (parts_cons (by decide) _)
  have hword : Cuts (' ' :: named) rest [word name] :=
    ofWord skipped_blank hname hrest
  exact hpub.cons (hconst.cons hword)

/-- A constant up to the bracket of its list. -/
theorem constantFront (hblank : Skipped blank) {name : String} (hname : IsWord name)
    (tail : List Char) :
    Cuts (blank ++
      ("pub const ".toList ++ (name.toList ++ (": &'static [&'static str] = &[".toList ++ tail))))
      ('[' :: tail) ([word "pub", word "const", word name, mark ':'] ++
        Emission.typeTrees ++ [mark '=', mark '&']) := by
  have hparts : Parts (": &'static [&'static str] = &[".toList ++ tail) :=
    parts_cons (by decide) _
  have hcolon : Cuts (": &'static [&'static str] = &[".toList ++ tail)
      (" &'static [&'static str] = &[".toList ++ tail) [mark ':'] :=
    ofLeaf skipped_nil rfl (by decide) rfl rfl rfl (by simp)
  have htype : Cuts (" &'static [&'static str] = &[".toList ++ tail) (" = &[".toList ++ tail)
      Emission.typeTrees := by
    simpa using typeTrees (" = &[".toList ++ tail)
  have hequals : Cuts (" = &[".toList ++ tail) (" &[".toList ++ tail) [mark '='] :=
    ofLeaf skipped_blank rfl (by decide) rfl rfl rfl (by simp)
  have hand : Cuts (" &[".toList ++ tail) ('[' :: tail) [mark '&'] :=
    ofLeaf skipped_blank rfl (by decide) rfl rfl rfl (by simp)
  have hname : Cuts (blank ++ ("pub const ".toList ++ (name.toList ++
      (": &'static [&'static str] = &[".toList ++ tail))))
        (": &'static [&'static str] = &[".toList ++ tail)
      [word "pub", word "const", word name] :=
    declared hblank (show IsWord "const" by decide) hname hparts
  have hfront := hname.append hcolon
  exact (hfront.append htype).append (hequals.cons hand)

theorem entryTrees {e : ListEntry} (h : ∀ name ∈ e.marker.segments, IsWord name)
    (hname : IsWord e.bindingName) (hblank : Skipped blank) (rest : List Char) :
    Cuts (blank ++ ((Emission.join (Emission.entryLines e)).toList ++ rest)) ('\n' :: rest)
      (Emission.entryTrees e) := by
  obtain ⟨tail, htail⟩ := Emission.exists_listText e.names
  let line := (" Registration names of functions marked `#[" ++ e.marker.display ++ "]`.").toList
  let behind := "        pub const ".toList ++ (e.bindingName.toList ++
    (": &'static [&'static str] = &[".toList ++ (tail ++ '\n' :: rest)))
  have hcs : blank ++ ((Emission.join (Emission.entryLines e)).toList ++ rest) =
      (blank ++ "        ".toList) ++ '/' :: '/' :: '/' :: (line ++ '\n' :: behind) := by
    rw [toList_join_entryLines, htail]
    simp [line, behind]
  have hline : '\n' ∉ line := by
    simpa [line]
      using GeneratedText.not_mem_display h (by decide) (by decide) (by decide) (by decide)
  have hreturn : '\r' ∉ line := by
    simpa [line]
      using GeneratedText.not_mem_display h (by decide) (by decide) (by decide) (by decide)
  have hblank' : Skipped (blank ++ "        ".toList) :=
    hblank.append (Skipped.spaces _ (by decide))
  have hdoc := ofDocLine hblank' hline hreturn (by simp [line]) behind
  have hconstant : Cuts ('\n' :: behind) ('[' :: (tail ++ '\n' :: rest)) _ :=
    constantFront (Skipped.spaces "\n        " (by decide)) hname _
  have hlist := listTrees e.names rest
  rw [htail] at hlist
  have hwhole := (hdoc.append hconstant).append hlist
  rw [← hcs, unplacedAll_ofDoc, String.ofList_toList] at hwhole
  simpa [Emission.entryTrees, Emission.constantTrees] using hwhole

/-- The constants, each but the first behind an empty line. -/
theorem bodyTrees {entries : List ListEntry} (hne : entries ≠ [])
    (h : ∀ e ∈ entries, ∀ name ∈ e.marker.segments, IsWord name)
    (hname : ∀ e ∈ entries, IsWord e.bindingName) (hblank : Skipped blank) (rest : List Char) :
    Cuts (blank ++ ((Emission.join (Emission.bodyLines entries)).toList ++ rest)) ('\n' :: rest)
      (entries.flatMap Emission.entryTrees) := by
  induction entries generalizing blank with
  | nil => exact absurd rfl hne
  | cons e entries ih =>
      obtain ⟨he, hentries⟩ := List.forall_mem_cons.mp h
      obtain ⟨hnamed, hnames⟩ := List.forall_mem_cons.mp hname
      cases hmore : entries with
      | nil => simpa [Emission.bodyLines] using entryTrees he hnamed hblank rest
      | cons next more =>
          -- the empty line becomes part of the blanks in front of the next constant
          rw [← hmore]
          have hcs : (Emission.join (Emission.bodyLines (e :: entries))).toList ++ rest =
              (Emission.join (Emission.entryLines e)).toList ++
                ('\n' :: ((Emission.join (Emission.bodyLines entries)).toList ++ rest)) := by
            rw [hmore, GeneratedText.bodyLines_cons]
            simp [Emission.join]
          rw [hcs, List.flatMap_cons]
          exact (entryTrees he hnamed hblank _).append
            (ih (by simp [hmore]) hentries hnames (Skipped.spaces "\n\n" (by decide)))

/-- Blanks at the end. -/
theorem skipped (h : skipSpace cs = []) : Cuts cs [] [] := by
  intro pos current stack
  have hempty (pos : Position) {cs : List Char} (hcs : skipSpace cs = []) :
      Lexeme.ofChars pos cs = ([], none) := by
    rw [Lexeme.ofChars, hcs]
    rfl
  have hnil : skipSpace [] = [] := skipSpace_of_none rfl
  exact ⟨pos, [], rfl, by simp [nest, hempty pos h, hempty pos hnil]⟩

theorem typeFront {name : String} (hname : IsWord name) (rest : List Char) :
    Cuts ("\n    pub struct ".toList ++
      (name.toList ++ (";\n\n    #[allow(non_upper_case_globals)]".toList ++
      ("\n    impl ".toList ++ (name.toList ++ ' ' :: rest))))) (' ' :: rest)
      [word "pub", word "struct", word name, mark ';', mark '#',
        bracketed .bracket [word "allow", bracketed .parenthesis [word "non_upper_case_globals"]],
        word "impl", word name] := by
  let impl := "\n    impl ".toList ++ (name.toList ++ ' ' :: rest)
  have hstruct : Cuts ("\n    pub struct ".toList ++
      (name.toList ++ (";\n\n    #[allow(non_upper_case_globals)]".toList ++ impl)))
      (";\n\n    #[allow(non_upper_case_globals)]".toList ++ impl) [word "pub",
        word "struct", word name] :=
    declared (Skipped.spaces "\n    " (by decide)) (show IsWord "struct" by decide) hname
      (parts_cons (by decide) _)
  have hend : Cuts (";\n\n    #[allow(non_upper_case_globals)]".toList ++ impl)
      ("\n\n    #[allow(non_upper_case_globals)]".toList ++ impl) [mark ';'] :=
    ofLeaf skipped_nil rfl (by decide) rfl rfl rfl (by simp)
  have hnumber : Cuts ("\n\n    #[allow(non_upper_case_globals)]".toList ++ impl)
      ("[allow(non_upper_case_globals)]".toList ++ impl) [mark '#'] :=
    ofLeaf (Skipped.spaces "\n\n    " (by decide)) rfl (by decide) rfl rfl rfl (by simp)
  have hallow : Cuts ("allow(non_upper_case_globals)]".toList ++ impl)
      ("(non_upper_case_globals)]".toList ++ impl) [word "allow"] :=
    ofWord skipped_nil (by decide) (parts_cons (by decide) _)
  have hlint : Cuts ("non_upper_case_globals)]".toList ++ impl) (")]".toList ++ impl)
      [word "non_upper_case_globals"] :=
    ofWord skipped_nil (by decide) (parts_cons (by decide) _)
  have hparens : Cuts ("(non_upper_case_globals)]".toList ++ impl) ("]".toList ++ impl)
      [bracketed .parenthesis [word "non_upper_case_globals"]] :=
    ofBrackets skipped_nil rfl rfl skipped_nil hlint
  have hbrackets : Cuts ("[allow(non_upper_case_globals)]".toList ++ impl) impl
      [bracketed .bracket [word "allow", bracketed .parenthesis [word "non_upper_case_globals"]]] :=
    ofBrackets skipped_nil rfl rfl skipped_nil (hallow.cons hparens)
  have himpl : Cuts impl (' ' :: (name.toList ++ ' ' :: rest)) [word "impl"] :=
    ofWord (Skipped.spaces "\n    " (by decide)) (show IsWord "impl" by decide)
      (parts_cons (by decide) _)
  have hname : Cuts (' ' :: (name.toList ++ ' ' :: rest)) (' ' :: rest) [word name] :=
    ofWord skipped_blank hname (parts_cons (by decide) _)
  exact (hstruct.append (hend.cons (hnumber.cons (hbrackets.cons (himpl.cons hname)))))

theorem skipped_header : Skipped (Emission.header.toList ++ ['\n', '\n']) := by
  let text := "@generated by markscan. Do not edit.".toList
  have hheader : Skipped ('/' :: '/' :: ' ' :: (text ++ ['\n'])) :=
    Skipped.comment (by decide) (by decide)
  simpa [Emission.header, text] using hheader.append (Skipped.spaces "\n" (by decide))

end TokenTree.Cuts

namespace Emission

open TokenTree

/-- The whole text is cut into the trees of one module. -/
theorem cuts_trees {s : Emission} (hmodule : IsWord s.module) (hcontainer : IsWord s.container)
    {entries : List ListEntry} (hne : entries ≠ [])
    (h : ∀ e ∈ entries, ∀ name ∈ e.marker.segments, IsWord name)
    (hnames : ∀ e ∈ entries, IsWord e.bindingName) :
    Cuts (join (s.lines entries)).toList [] (s.trees entries) := by
  let body := (join (bodyLines entries)).toList ++ "    \x7d\n\x7d\n".toList
  let inside := "\n    pub struct ".toList ++ (s.container.toList ++
    (";\n\n    #[allow(non_upper_case_globals)]".toList ++ ("\n    impl ".toList ++
      (s.container.toList ++ ' ' :: '\x7b' :: '\n' :: body))))
  have hcs : (join (s.lines entries)).toList = (header.toList ++ ['\n', '\n']) ++
      ("pub".toList ++ ' ' :: ("mod".toList ++ ' ' :: (s.module.toList ++
        ' ' :: '\x7b' :: inside))) := by
    simp [lines, join, inside, body, indent]
  have hmodule : Cuts _ (' ' :: '\x7b' :: inside) [word "pub", word "mod", word s.module] :=
    Cuts.declared Cuts.skipped_header (show IsWord "mod" by decide) hmodule
      (Cuts.parts_cons (by decide) _)
  have hbody : Cuts ('\n' :: body) "\n    \x7d\n\x7d\n".toList (entries.flatMap entryTrees) :=
    Cuts.bodyTrees hne h hnames (Skipped.spaces "\n" (by decide)) _
  have himpl : Cuts (' ' :: '\x7b' :: '\n' :: body) "\n\x7d\n".toList
      [bracketed .brace (entries.flatMap entryTrees)] :=
    Cuts.ofBrackets Cuts.skipped_blank rfl rfl (Skipped.spaces "\n    " (by decide)) hbody
  have hinside := (Cuts.typeFront hcontainer ('\x7b' :: '\n' :: body)).append himpl
  have hwhole : Cuts (' ' :: '\x7b' :: inside) ['\n'] [bracketed .brace _] :=
    Cuts.ofBrackets Cuts.skipped_blank rfl rfl (Skipped.spaces "\n" (by decide)) hinside
  rw [hcs]
  exact (hmodule.append hwhole).append
    (Cuts.skipped ((skipSpace_space rfl []).trans (skipSpace_of_none rfl)))

/-- So its tokens are those trees. -/
theorem ofText_join {s : Emission} (hmodule : IsWord s.module) (hcontainer : IsWord s.container)
    {entries : List ListEntry} (hne : entries ≠ [])
    (h : ∀ e ∈ entries, ∀ name ∈ e.marker.segments, IsWord name)
    (hnames : ∀ e ∈ entries, IsWord e.bindingName) :
    ∃ found, TokenTree.ofText (join (s.lines entries)).toList = .ok found ∧
      unplacedAll found = s.trees entries := by
  refine (cuts_trees hmodule hcontainer hne h hnames).ofText ?_
  simp [lines, join, header, byteOrderMark]

end Emission

end MarkerIndex
