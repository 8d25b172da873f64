import MarkerIndex.Proofs.Blanks
import MarkerIndex.Proofs.GeneratedTokens
import MarkerIndex.Proofs.MarkerWords
import MarkerIndex.Proofs.PathSigns
import MarkerIndex.Proofs.PlainPath
/-!
Item paths as texts. Words that may stand in a path of a source file are read as a path with two
colons between them, whatever blanks and comments are about. So a path is read back from its text
just when every segment of it is such a word; the keyword that marks attributes as unsafe is none,
and neither are most other keywords.
-/

namespace MarkerIndex

namespace TokenTree

open Text (IsWord)

/-- The tokens of segments behind another one. -/
def laterTrees (ws : List String) : List TokenTree :=
  ws.flatMap fun w => [joined ':', mark ':', word w]

/-- The tokens of a path. The first two colons may be missing. -/
def pathTrees (leading : Bool) (w : String) (ws : List String) : List TokenTree :=
  if leading then laterTrees (w :: ws) else word w :: laterTrees ws

theorem unplacedAll_laterTrees (ws : List String) :
    unplacedAll (laterTrees ws) = laterTrees ws := by
  induction ws with
  | nil => rfl
  | cons w ws ih =>
      rw [laterTrees, List.flatMap_cons, ← laterTrees]
      simp only [List.cons_append, List.nil_append, unplacedAll, ih]
      rfl

theorem unplacedAll_pathTrees (leading : Bool) (w : String) (ws : List String) :
    unplacedAll (pathTrees leading w ws) = pathTrees leading w ws := by
  cases leading with
  | true => exact unplacedAll_laterTrees (w :: ws)
  | false => exact congrArg (word w :: ·) (unplacedAll_laterTrees ws)

end TokenTree

namespace PathSign

def text : PathSign → String
  | colons => "::"
  | segment word => word

/-- Signs in a text, each behind what stands between it and the one before. -/
def spaced (last : List Char) : List (List Char × PathSign) → List Char
  | [] => last
  | (gap, sign) :: pieces => gap ++ (sign.text.toList ++ spaced last pieces)

theorem toList_intercalate_cons (w v : String) (ws : List String) :
    (String.intercalate "::" (w :: v :: ws)).toList =
      w.toList ++ ':' :: ':' :: (String.intercalate "::" (v :: ws)).toList := by
  simp only [String.toList_intercalate, List.map_cons, List.intercalate_cons_cons,
    List.append_assoc]
  rfl

/-- Segments with nothing but colons between them. -/
theorem spaced_ofPath (w : String) (ws : List String) :
    spaced [] ((ofPath false (w :: ws)).map ([], ·)) =
      (String.intercalate "::" (w :: ws)).toList := by
  induction ws generalizing w with
  | nil => simp [ofPath, later, spaced, text]
  | cons v ws ih =>
      rw [toList_intercalate_cons, ← ih]
      simp [ofPath, later, spaced, text]

end PathSign

namespace TokenTree.Cuts

open PathSign Scan
open Text (IsWord)

variable {gap last : List Char} {pieces : List (List Char × PathSign)} {w : String}
  {ws : List String}

/-- Two colons somewhere in front of a word. -/
theorem colons {blank : List Char} (hblank : Skipped blank) (hgap : Skipped gap) (hw : IsWord w)
    (rest : List Char) : Cuts (blank ++ ':' :: ':' :: (gap ++ (w.toList ++ rest)))
    (gap ++ (w.toList ++ rest))
      [joined ':', mark ':'] := by
  let after := gap ++ (w.toList ++ rest)
  have hpunct : punctChar after = none := by
    by_cases hnil : gap = []
    · obtain ⟨b, tail, hchars, hb⟩ := Lexeme.exists_cons_of_isWord hw
      have hslash : '/' ≠ b := by
        rintro rfl
        exact absurd hb (by decide)
      simp only [after, hnil, hchars, List.nil_append, List.cons_append]
      simp [punctChar, startsWith, afterText, hslash, isPunct_of_isIdentStart hb]
    · exact (parts_of_skipSpace hgap.skipSpace_eq_nil hnil _).2
  have hleaf :
      Lexeme.leaf? (':' :: after) = some (.punct ':' (punctChar after).isSome, after) := rfl
  rw [hpunct] at hleaf
  have hfirst : Cuts (blank ++ ':' :: ':' :: after) (':' :: after) [joined ':'] :=
    ofLeaf hblank rfl (by decide) rfl rfl rfl (by simp)
  have hsecond : Cuts (':' :: after) after [mark ':'] :=
    ofLeaf skipped_nil rfl (by decide) rfl rfl hleaf (by simp)
  exact hfirst.append hsecond

/-- What is skipped, and a colon, end a word. -/
theorem parts_spaced_later (hgaps : ∀ piece ∈ pieces, Skipped piece.1) (hlast : skipSpace last = [])
    (hsigns : pieces.map (·.2) = later ws) : Parts (spaced last pieces) := by
  cases pieces with
  | nil =>
      by_cases hnil : last = []
      · rw [hnil]
        exact trivial
      · have hparts := (parts_of_skipSpace hlast hnil []).1
        rwa [List.append_nil] at hparts
  | cons piece pieces =>
      obtain ⟨gap, sign⟩ := piece
      obtain rfl : sign = .colons := by
        cases ws with
        | nil => cases hsigns
        | cons w ws => exact (List.cons.inj hsigns).1
      by_cases hnil : gap = []
      · rw [hnil]
        exact parts_cons (by decide) _
      · exact (parts_of_skipSpace (hgaps _ List.mem_cons_self).skipSpace_eq_nil hnil _).1

/-- Words behind double colons, with anything to be skipped between all of them. -/
theorem spaced_later (hgaps : ∀ piece ∈ pieces, Skipped piece.1) (hlast : skipSpace last = [])
    (hws : ∀ w ∈ ws, IsWord w) (hsigns : pieces.map (·.2) = later ws) :
    Cuts (spaced last pieces) [] (laterTrees ws) := by
  induction ws generalizing pieces with
  | nil =>
      obtain rfl : pieces = [] := List.map_eq_nil_iff.mp hsigns
      exact skipped hlast
  | cons w ws ih =>
      obtain ⟨hw, hws⟩ := List.forall_mem_cons.mp hws
      obtain ⟨⟨before, _⟩, _, rfl, rfl, htail⟩ := List.map_eq_cons_iff.mp hsigns
      obtain ⟨⟨gap, _⟩, pieces, rfl, rfl, hlater⟩ := List.map_eq_cons_iff.mp htail
      obtain ⟨hbefore, hgaps⟩ := List.forall_mem_cons.mp hgaps
      obtain ⟨hgap, hgaps⟩ := List.forall_mem_cons.mp hgaps
      have hcolons := colons hbefore hgap hw (spaced last pieces)
      have hword : Cuts (gap ++ (w.toList ++ spaced last pieces)) (spaced last pieces) [word w] :=
        ofWord hgap hw (parts_spaced_later hgaps hlast hlater)
      exact hcolons.append (hword.append (ih hgaps hws hlater))

/-- The signs of a path in a text are the tokens of the path. -/
theorem spaced_path {leading : Bool} (hgaps : ∀ piece ∈ pieces, Skipped piece.1)
    (hlast : skipSpace last = []) (hws : ∀ v ∈ w :: ws, IsWord v)
    (hsigns : pieces.map (·.2) = ofPath leading (w :: ws)) :
    Cuts (spaced last pieces) [] (pathTrees leading w ws) := by
  cases leading with
  | true => exact spaced_later hgaps hlast hws hsigns
  | false =>
      obtain ⟨hw, hws⟩ := List.forall_mem_cons.mp hws
      obtain ⟨⟨gap, _⟩, pieces, rfl, rfl, hlater⟩ := List.map_eq_cons_iff.mp hsigns
      obtain ⟨hgap, hgaps⟩ := List.forall_mem_cons.mp hgaps
      have hword : Cuts (gap ++ (w.toList ++ spaced last pieces)) (spaced last pieces) [word w] :=
        ofWord hgap hw (parts_spaced_later hgaps hlast hlater)
      exact hword.append (spaced_later hgaps hlast hws hlater)

end TokenTree.Cuts

namespace Grammar

open TokenTree (word laterTrees pathTrees)

variable {g : Readers} {w : String} {ws : List String}

/-- A segment without arguments. -/
theorem reads_segment (h : IsSegment w) (ws : List String) :
    Reads (segment g false) (word w :: laterTrees ws) (w, .first, false) (laterTrees ws) := by
  have hword : Reads anyWord (word w :: laterTrees ws) (w, .first) (laterTrees ws) :=
    fun _ read _ => ⟨word w :: read, rfl⟩
  have harguments : (!false && atOp "<" (laterTrees ws) && !atOp "<=" (laterTrees ws) &&
      !atOp "<<=" (laterTrees ws) ||
      (atOp "::" (laterTrees ws) && atOp "<" (behind (behind (laterTrees ws))))) = false := by
    cases ws <;> rfl
  by_cases hkeyword :
    ["super", "self", "crate", "try"].any (atKeyword · (word w :: laterTrees ws)) = true
  · exact .ahead (.ite_true hkeyword (.bind hword (.refl _ _)))
  · have hname : Reads (nameOr ["Self"]) (word w :: laterTrees ws) (w, .first) (laterTrees ws) := by
      rcases h with hname | member
      · exact Reads.nameOr hname _ _
      · have hself : ["Self"].any (atKeyword · (word w :: laterTrees ws)) = true := by
          simp only [segmentWords, List.mem_cons, List.not_mem_nil, or_false] at member
          rcases member with rfl | rfl | rfl | rfl | rfl
          case inr.inr.inr.inl => rfl
          all_goals exact absurd rfl hkeyword
        exact .ahead (.ite_true hself hword)
    refine .ahead (.ite_false (Bool.eq_false_iff.mpr hkeyword) (.bind hname ?_))
    exact .ahead (.ite_false harguments (.refl _ _))

/-- A round of the loop over the segments behind the first. -/
def segmentStep (g : Readers) (acc : List (String × Position × Bool)) :
    Reader (Bool × List (String × Position × Bool)) := do
  let ts ← rest
  if atOp "::" ts && !atParen (behind (behind ts)) then
    let value ← (do
      op "::"
      segment g false)
    return (true, value :: acc)
  else return (false, acc)

theorem loops_segmentStep (h : ∀ v ∈ ws, IsSegment v) (acc : List (String × Position × Bool)) :
    Loops (segmentStep g) acc (laterTrees ws)
      ((ws.map fun v => (v, Position.first, false)).reverse ++ acc) [] := by
  induction ws generalizing acc with
  | nil => exact .refl _ _
  | cons v ws ih =>
      obtain ⟨hv, hws⟩ := List.forall_mem_cons.mp h
      have hcolons : Reads (op "::") (laterTrees (v :: ws)) () (word v :: laterTrees ws) :=
        fun _ _ _ => ⟨_, rfl⟩
      have hsegment : Reads (do op "::"; segment g false) (laterTrees (v :: ws))
          (v, .first, false) (laterTrees ws) := .bind hcolons (reads_segment hv ws)
      have hround : Reads (segmentStep g acc) (laterTrees (v :: ws))
          (true, (v, .first, false) :: acc) (laterTrees ws) :=
        .ahead (.ite_true rfl (.bind hsegment (.refl _ _)))
      have hlt : (laterTrees ws).length < (laterTrees (v :: ws)).length := by
        simp only [laterTrees, List.flatMap_cons, List.length_append, List.length_cons]
        omega
      have hlater := ih hws ((v, .first, false) :: acc)
      rw [List.map_cons, List.reverse_cons, List.append_assoc]
      exact .more hround hlt hlater

theorem reads_path (leading : Bool) (h : ∀ v ∈ w :: ws, IsSegment v) :
    Reads (path g false) (pathTrees leading w ws)
      (shapeOf leading false ((w :: ws).map fun v => (v, .first, false))) [] := by
  obtain ⟨hw, hws⟩ := List.forall_mem_cons.mp h
  have hloops := loops_segmentStep (g := g) hws []
  have hlast : ∀ acc, Reads (segmentStep g acc) [] (false, acc) [] :=
    fun acc => .ahead (.ite_false rfl (.refl _ _))
  have hmore : Reads (moreSegments g false) (laterTrees ws)
      (ws.map fun v => (v, .first, false)) [] := by
    have hfound := Reads.loop hloops (hlast _)
    have hvalue : Reads (moreSegments g false) (laterTrees ws)
        ((ws.map fun v => (v, Position.first, false)).reverse ++ []).reverse [] :=
      .bind hfound (.refl _ _)
    simpa using hvalue
  have hleading : Reads (op? "::") (pathTrees leading w ws) leading (word w :: laterTrees ws) := by
    cases leading with
    | true =>
        have hcolons : Reads (op "::") (pathTrees true w ws) () (word w :: laterTrees ws) :=
          fun _ _ _ => ⟨_, rfl⟩
        exact .ahead (.ite_true rfl (.bind hcolons (.refl _ _)))
    | false => exact .ahead (.ite_false rfl (.refl _ _))
  exact .bind hleading (.bind (reads_segment hw ws) (.bind hmore (.refl _ _)))

/-- A text with the tokens of words that may stand in a path is read as the path of the words. -/
theorem readText_path {cs : List Char} {leading : Bool} (h : ∀ v ∈ w :: ws, IsSegment v)
    (hcuts : TokenTree.Cuts (dropByteOrderMark cs) [] (pathTrees leading w ws)) :
    ∃ shape, readText (path · false) cs = .ok shape ∧ shape.plain = true ∧
      shape.path.segments = w :: ws := by
  obtain ⟨found, htokens, hfound⟩ := hcuts.ofText_behind_mark
  let shape := shapeOf leading false ((w :: ws).map fun v => (v, Position.first, false))
  have hread : parsePathTokens (pathTrees leading w ws) = .ok shape :=
    readAll_of_reads fun n => reads_path leading h
  have hplain : shape.plain = true := by simp [shape, shapeOf]
  have hsame : TokenTree.unplacedAll (pathTrees leading w ws) = TokenTree.unplacedAll found := by
    rw [hfound, TokenTree.unplacedAll_pathTrees]
  obtain ⟨shape', hread', hplain', hwords'⟩ := parsePathTokens_alike hsame hread hplain
  refine ⟨shape', ?_, hplain', ?_⟩
  · rw [readText, htokens]
    exact hread'
  · have hsegments : shape'.path.segments = shape.path.segments := (Prod.mk.inj hwords').2
    rw [hsegments]
    simp [shape, shapeOf, Function.comp_def]

/-- No byte order mark stands in front of the signs of a path. -/
theorem head?_spaced {last : List Char} {pieces : List (List Char × PathSign)} {leading : Bool}
    (hgaps : ∀ piece ∈ pieces, Scan.Skipped piece.1) (h : ∀ v ∈ w :: ws, IsSegment v)
    (hsigns : pieces.map (·.2) = PathSign.ofPath leading (w :: ws)) :
    (PathSign.spaced last pieces).head? ≠ some TokenTree.byteOrderMark := by
  obtain ⟨sign, signs, hpath, hsign⟩ :
      ∃ sign signs, PathSign.ofPath leading (w :: ws) = sign :: signs ∧
      (sign = .colons ∨ sign = .segment w) := by
    cases leading with
    | true => exact ⟨_, _, rfl, .inl rfl⟩
    | false => exact ⟨_, _, rfl, .inr rfl⟩
  obtain ⟨⟨gap, _⟩, pieces, rfl, rfl, -⟩ := List.map_eq_cons_iff.mp (hsigns.trans hpath)
  cases gap with
  | nil =>
      rcases hsign with rfl | rfl
      · exact fun hhead => absurd (Option.some.inj hhead) (by decide)
      · obtain ⟨b, tail, hw, hb⟩ :=
          Lexeme.exists_cons_of_isWord (isWord_of_isSegment (h w List.mem_cons_self))
        simp only [PathSign.spaced, PathSign.text, hw, List.nil_append, List.cons_append,
          List.head?_cons]
        rintro ⟨rfl⟩
        exact absurd hb (by decide +kernel)
  | cons c gap =>
      have hnil := (hgaps _ List.mem_cons_self).skipSpace_eq_nil
      rintro ⟨rfl⟩
      rcases Scan.head_of_skipSpace hnil (by simp) with ⟨c, tail, heq, hspace⟩ | ⟨d, tail, heq, -⟩
      · rw [← (List.cons.inj heq).1] at hspace
        exact absurd hspace (by decide)
      · exact absurd (List.cons.inj heq).1 (by decide)

end Grammar

namespace Text

/-- No blank may stand in a word. -/
theorem isBlank_apart {c : Char} (h : isBlank c = true) :
    isIdentStart c = false ∧ isIdentContinue c = false ∧ c ≠ '#' ∧ c ≠ ':' := by
  have hspace : Scan.isSpace c = true := by simp [Scan.isSpace, h]
  exact Scan.of_isSpace (P := fun c => isIdentStart c = false ∧
    isIdentContinue c = false ∧ c ≠ '#' ∧
    c ≠ ':') (by decide +kernel) hspace

theorem trim_of_unblank {s : String} (h : ∀ c ∈ s.toList, isBlank c = false) : trim s = s := by
  have hdrop : ∀ cs : List Char, (∀ c ∈ cs, isBlank c = false) → cs.dropWhile isBlank = cs := by
    intro cs hcs
    cases cs with
    | nil => rfl
    | cons c cs => exact List.dropWhile_cons_of_neg (by simp [hcs c List.mem_cons_self])
  have hreverse : ∀ c ∈ s.toList.reverse, isBlank c = false :=
    fun c member => h c (List.mem_reverse.mp member)
  rw [trim, trimChars, hdrop _ h, hdrop _ hreverse, List.reverse_reverse, String.ofList_toList]

end Text

namespace ItemPath

theorem trim_display {p : ItemPath} (h : ∀ w ∈ p.segments, Text.IsWord w) :
    Text.trim p.display = p.display := by
  refine Text.trim_of_unblank fun c member => Bool.eq_false_iff.mpr fun hblank => ?_
  obtain ⟨hstart, hcontinue, hmark, hcolon⟩ := Text.isBlank_apart hblank
  exact GeneratedText.not_mem_display h hstart hcontinue hmark hcolon member

/-- A path is read from what the grammar takes of the text, where that has no arguments. -/
theorem exists_shape_of_parse? {text : String} {p : ItemPath} (h : parse? text = some p) :
    ∃ shape, Grammar.parsePath (Text.trim text) = .ok shape ∧ shape.plain = true ∧
      shape.path.segments = p.segments := by
  rw [parse?] at h
  split at h
  · next shape hread =>
      obtain ⟨hplain, hp⟩ := Option.ite_none_right_eq_some.mp h
      obtain rfl := Option.some.inj hp
      exact ⟨shape, hread, hplain, rfl⟩
  · cases h

/-- Whatever is read as a path has segments that may stand in one. -/
theorem spells_of_parse? {text : String} {p : ItemPath} (h : parse? text = some p) :
    ∀ w ∈ p.segments, Grammar.IsSegment w := by
  obtain ⟨shape, hread, -, hsegments⟩ := exists_shape_of_parse? h
  have hwords : ∀ w ∈ shape.path.segments, Grammar.IsSegment w :=
    Grammar.of_readText (fun _ => Grammar.returns_path false) hread
  rwa [hsegments] at hwords

/-- A path that is read has a segment. -/
theorem ne_nil_of_parse? {text : String} {p : ItemPath} (h : parse? text = some p) :
    p.segments ≠ [] := by
  have hreturns (g : Grammar.Readers) :
      Grammar.Returns (fun shape => shape.path.segments ≠ []) (Grammar.path g false) := by
    unfold Grammar.path
    exact .bind fun _ => .bind fun _ => .bind fun _ => .pure (by simp [Grammar.shapeOf])
  obtain ⟨shape, hread, -, hsegments⟩ := exists_shape_of_parse? h
  have hne : shape.path.segments ≠ [] :=
    Grammar.of_readText (P := fun shape => shape.path.segments ≠ []) (fun _ => hreturns _) hread
  rwa [hsegments] at hne

/-- A path that is read is spelled in words of paths. -/
theorem Spells.of_parse? {text : String} {p : ItemPath} (h : parse? text = some p) :
    p.Spells Grammar.IsSegment :=
  ⟨ne_nil_of_parse? h, spells_of_parse? h⟩

/-- A path is read back from its text just when all its segments may stand in a path. -/
theorem parse?_display_iff (p : ItemPath) :
    parse? p.display = some p ↔ p.Spells Grammar.IsSegment := by
  constructor
  · exact Spells.of_parse?
  · rintro ⟨hne, hwords⟩
    obtain ⟨w, ws, hsegments⟩ := List.exists_cons_of_ne_nil hne
    have htrim := trim_display fun w hw => Grammar.isWord_of_isSegment (hwords w hw)
    rw [hsegments] at hwords
    let pieces : List (List Char × PathSign) := (PathSign.ofPath false (w :: ws)).map ([], ·)
    have hgaps : ∀ piece ∈ pieces, Scan.Skipped piece.1 := by
      simp [pieces, TokenTree.Cuts.skipped_nil]
    have hsigns : pieces.map (·.2) = PathSign.ofPath false (w :: ws) := by
      simp [pieces, Function.comp_def]
    have hchars : PathSign.spaced [] pieces = p.display.toList := by
      rw [display, hsegments]
      exact PathSign.spaced_ofPath w ws
    have hcuts : TokenTree.Cuts (PathSign.spaced [] pieces) [] (TokenTree.pathTrees false w ws) :=
      .spaced_path hgaps Scan.skipSpace_nil (fun v hv =>
        Grammar.isWord_of_isSegment (hwords v hv)) hsigns
    rw [← Grammar.dropByteOrderMark_of_head? (Grammar.head?_spaced hgaps hwords hsigns),
      hchars] at hcuts
    obtain ⟨shape, hread, hplain, hshape⟩ := Grammar.readText_path hwords hcuts
    rw [parse?, htrim, Grammar.parsePath, hread]
    simp only [hplain, ↓reduceIte, hshape, ← hsegments]

end ItemPath

end MarkerIndex
