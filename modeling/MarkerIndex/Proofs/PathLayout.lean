import MarkerIndex.Proofs.Pass
import MarkerIndex.Proofs.PathText
import MarkerIndex.Proofs.TextLeaves
/-!
The layout of item paths. A text is read as a path just when it consists of the signs of the path,
each behind blanks and comments, and maybe of a byte order mark in front. So what stands between the
signs does not matter, as long as it is skipped, and a path may be written with colons in front or
without. The mark is passed by in front of the whole text alone: it may not come to stand behind
colons.
-/

namespace MarkerIndex

open Scan

namespace PathSign

open TokenTree (Leaves)

/-- A sign at the front of a text, in front of other signs, stands behind what is skipped there. -/
theorem exists_spaced_cons {sign : PathSign} {signs : List PathSign} {cs more : List Char}
    (hne : skipSpace cs ≠ []) (hcs : skipSpace cs = sign.text.toList ++ more)
    (hmore : ∃ pieces last, (∀ piece ∈ pieces, Skipped piece.1) ∧ skipSpace last = [] ∧
      pieces.map (·.2) = signs ∧ spaced last pieces = more) :
    ∃ pieces last, (∀ piece ∈ pieces, Skipped piece.1) ∧ skipSpace last = [] ∧
      pieces.map (·.2) = sign :: signs ∧ spaced last pieces = cs := by
  obtain ⟨pieces, last, hgaps, hlast, rfl, rfl⟩ := hmore
  obtain ⟨gap, hgap, hskipped⟩ := exists_gap hne
  refine ⟨(gap, sign) :: pieces, last, List.forall_mem_cons.mpr ⟨hskipped, hgaps⟩, hlast, rfl, ?_⟩
  rw [hgap, hcs]
  rfl

/-- Where all tokens of a text are those of signs, the text consists of the signs and of what is
skipped. -/
theorem exists_spaced {signs : List PathSign} {ts : List TokenTree}
    (h : Grammar.Spans (some signs) ts [])
    {cs : List Char} (hleaves : Leaves cs ts) : ∃ pieces last, (∀ piece ∈ pieces, Skipped piece.1) ∧
      skipSpace last = [] ∧ pieces.map (·.2) = signs ∧ spaced last pieces = cs := by
  generalize hb : some signs = b, hrest : ([] : List TokenTree) = rest at h
  induction h generalizing signs cs with
  | refl ts =>
      obtain rfl := Option.some.inj hb
      subst hrest
      cases hleaves with
      | last hend => exact ⟨[], cs, by simp, hend, rfl, rfl⟩
  | @colons signs ts rest p q joint _ ih =>
      obtain rfl := Option.some.inj hb
      cases hleaves with
      | @leaf _ after _ _ _ hfirst hmore =>
          cases hmore with
          | @leaf _ behind _ _ _ hsecond hmore =>
              obtain ⟨hcs, hjoint⟩ := Lexeme.eq_cons_of_leaf? hfirst
              -- nothing is skipped between colons that are joined
              rw [skipSpace_of_punctChar hjoint.symm] at hsecond
              obtain ⟨rfl, -⟩ := Lexeme.eq_cons_of_leaf? hsecond
              exact exists_spaced_cons (by simp [hcs]) hcs (ih hmore rfl hrest)
  | @segment signs ts rest p word _ ih =>
      obtain rfl := Option.some.inj hb
      cases hleaves with
      | @leaf _ after _ _ _ hfirst hmore =>
          have hne : skipSpace cs ≠ [] := by
            intro hnil
            rw [hnil] at hfirst
            cases hfirst
          exact exists_spaced_cons hne (Lexeme.eq_append_of_leaf? hfirst) (ih hmore rfl hrest)
  | arguments => cases hb

end PathSign

/-- A path as it may stand in a text. -/
structure PathLayout where
  /-- The byte order mark of the text with the blanks before it, or nothing. -/
  front : List Char
  /-- The signs, each behind what stands in front of it. -/
  pieces : List (List Char × PathSign)
  last : List Char

namespace PathLayout

open TokenTree (byteOrderMark)

def chars (l : PathLayout) : List Char :=
  l.front ++ PathSign.spaced l.last l.pieces

def text (l : PathLayout) : String :=
  String.ofList l.chars

def signs (l : PathLayout) : List PathSign :=
  l.pieces.map (·.2)

/-- Nothing but blanks and comments stands between the signs and around them. -/
structure Apart (l : PathLayout) : Prop where
  front : l.front = [] ∨
    ∃ blanks, (∀ c ∈ blanks, Text.isBlank c = true) ∧ l.front = blanks ++ [byteOrderMark]
  gaps : ∀ piece ∈ l.pieces, Skipped piece.1
  last : skipSpace l.last = []

/-- The layout with more blanks on both sides of what stands in front of each sign. -/
def loosened (l : PathLayout) (before after : Nat → List Char) : PathLayout :=
  { l with pieces := l.pieces.mapIdx fun i (gap, sign) => (before i ++ (gap ++ after i), sign) }

theorem skipped_of_isBlank {blanks : List Char} (h : ∀ c ∈ blanks, Text.isBlank c = true) :
    Skipped blanks := by
  have hspaces : (String.ofList blanks).toList.all isSpace = true := by
    simpa [isSpace] using fun c hc => Or.inl (Or.inl (h c hc))
  simpa using Skipped.spaces (String.ofList blanks) hspaces

theorem signs_loosened (l : PathLayout) (before after : Nat → List Char) :
    (l.loosened before after).signs = l.signs := by
  apply List.ext_getElem <;> simp [signs, loosened]

theorem Apart.loosened {l : PathLayout} (h : l.Apart) {before after : Nat → List Char}
    (hbefore : ∀ i, ∀ c ∈ before i, Text.isBlank c = true)
    (hafter : ∀ i, ∀ c ∈ after i, Text.isBlank c = true) : (l.loosened before after).Apart where
  front := h.front
  gaps := by
    intro piece member
    obtain ⟨i, hi, rfl⟩ := List.mem_mapIdx.mp member
    have hgap := h.gaps _ (List.getElem_mem hi)
    exact (skipped_of_isBlank (hbefore i)).append (hgap.append (skipped_of_isBlank (hafter i)))
  last := h.last

end PathLayout

namespace PathSign

open TokenTree (byteOrderMark)
open Text (isBlank)

/-- The characters are the signs, laid out in some way. -/
def Written (signs : List PathSign) (cs : List Char) : Prop :=
  ∃ l : PathLayout, l.Apart ∧ l.signs = signs ∧ l.chars = cs

/-- There is something of the sign, and no blank in it. -/
def Unblank (sign : PathSign) : Prop :=
  sign.text.toList ≠ [] ∧ ∀ c ∈ sign.text.toList, isBlank c = false

theorem unblank_ofPath {leading : Bool} {ws : List String} (h : ∀ w ∈ ws, Text.IsWord w) :
    ∀ sign ∈ ofPath leading ws, sign.Unblank := by
  have hlater : ∀ sign ∈ later ws, sign.Unblank := by
    intro sign member
    obtain ⟨w, hw, hsign⟩ := List.mem_flatMap.mp member
    rcases List.mem_pair.mp hsign with rfl | rfl
    · have hcolon : isBlank ':' = false := by decide
      exact ⟨by decide, List.forall_mem_cons.mpr ⟨hcolon, List.forall_mem_singleton.mpr hcolon⟩⟩
    · refine ⟨(h w hw).toList_ne_nil, fun c hc => Bool.eq_false_iff.mpr fun hblank => ?_⟩
      obtain ⟨hstart, hcontinue, hmark, -⟩ := Text.isBlank_apart hblank
      exact (h w hw).not_mem hstart hcontinue hmark hc
  intro sign member
  unfold ofPath at member
  split at member
  · exact hlater sign member
  · exact hlater sign (List.mem_of_mem_tail member)

section

variable {signs : List PathSign} {c : Char} {cs : List Char}

/-- A blank may be put in front of signs. -/
theorem Written.cons (hc : isBlank c = true) (hne : signs ≠ []) (h : Written signs cs) :
    Written signs (c :: cs) := by
  obtain ⟨⟨front, pieces, last⟩, ⟨hfront, hgaps, hlast⟩, rfl, rfl⟩ := h
  rcases hfront with rfl | ⟨blanks, hblanks, rfl⟩
  · cases pieces with
    | nil => exact absurd rfl hne
    | cons piece pieces =>
        obtain ⟨gap, sign⟩ := piece
        obtain ⟨hgap, hothers⟩ := List.forall_mem_cons.mp hgaps
        have hgap' : Skipped (c :: gap) := (Skipped.space (by simp [isSpace, hc])).append hgap
        exact ⟨⟨[], (c :: gap, sign) :: pieces, last⟩,
          ⟨.inl rfl, List.forall_mem_cons.mpr ⟨hgap', hothers⟩, hlast⟩, rfl, rfl⟩
  · exact ⟨⟨c :: blanks ++ [byteOrderMark], pieces, last⟩,
      ⟨.inr ⟨c :: blanks, List.forall_mem_cons.mpr ⟨hc, hblanks⟩, rfl⟩, hgaps, hlast⟩, rfl, rfl⟩

/-- A blank in front of signs may be taken off: it is no part of the first sign, nor a byte order
mark. -/
theorem Written.of_cons (hc : isBlank c = true) (hsigns : ∀ sign ∈ signs, sign.Unblank)
    (hne : signs ≠ [])
    (h : Written signs (c :: cs)) : Written signs cs := by
  obtain ⟨⟨front, pieces, last⟩, ⟨hfront, hgaps, hlast⟩, rfl, hchars⟩ := h
  rcases hfront with rfl | ⟨blanks, hblanks, rfl⟩
  · cases pieces with
    | nil => exact absurd rfl hne
    | cons piece pieces =>
        obtain ⟨gap, sign⟩ := piece
        obtain ⟨hgap, hothers⟩ := List.forall_mem_cons.mp hgaps
        cases gap with
        | nil =>
            -- the blank would be the first character of the sign
            obtain ⟨hnil, hunblank⟩ := hsigns sign List.mem_cons_self
            obtain ⟨d, tail, htext⟩ := List.exists_cons_of_ne_nil hnil
            simp only [PathLayout.chars, spaced, htext, List.nil_append, List.cons_append] at hchars
            rw [(List.cons.inj hchars).1] at htext
            rw [hunblank c (by simp [htext])] at hc
            cases hc
        | cons d gap =>
            simp only [PathLayout.chars, spaced, List.nil_append, List.cons_append] at hchars
            obtain ⟨rfl, rfl⟩ := List.cons.inj hchars
            have hspace : isSpace d = true := by simp [isSpace, hc]
            have hgap' : Skipped gap :=
              fun more => (skipSpace_space hspace _).symm.trans (hgap more)
            exact ⟨⟨[], (gap, sign) :: pieces, last⟩,
              ⟨.inl rfl, List.forall_mem_cons.mpr ⟨hgap', hothers⟩, hlast⟩, rfl, rfl⟩
  · cases blanks with
    | nil =>
        obtain rfl : byteOrderMark = c := (List.cons.inj hchars).1
        exact absurd hc (by decide)
    | cons d blanks =>
        obtain ⟨rfl, rfl⟩ := List.cons.inj hchars
        exact ⟨⟨blanks ++ [byteOrderMark], pieces, last⟩,
          ⟨.inr ⟨blanks, (List.forall_mem_cons.mp hblanks).2, rfl⟩, hgaps, hlast⟩, rfl, rfl⟩

theorem spaced_append (last more : List Char) (pieces : List (List Char × PathSign)) :
    spaced (last ++ more) pieces = spaced last pieces ++ more := by
  induction pieces with
  | nil => rfl
  | cons piece pieces ih => simp only [spaced, ih, List.append_assoc]

theorem spaced_concat (last : List Char) (pieces : List (List Char × PathSign)) (gap : List Char)
    (sign : PathSign) :
    spaced last (pieces ++ [(gap, sign)]) = spaced (gap ++ (sign.text.toList ++ last)) pieces := by
  induction pieces with
  | nil => rfl
  | cons piece pieces ih => simp only [List.cons_append, spaced, ih]

/-- A blank may be put behind signs. -/
theorem Written.concat (hc : isBlank c = true) (h : Written signs cs) :
    Written signs (cs ++ [c]) := by
  have hspace : isSpace c = true := by simp [isSpace, hc]
  obtain ⟨⟨front, pieces, last⟩, ⟨hfront, hgaps, hlast⟩, rfl, rfl⟩ := h
  refine ⟨⟨front, pieces, last ++ [c]⟩,
    ⟨hfront, hgaps, (skipSpace_concat_eq_nil_iff hspace last).mpr hlast⟩, rfl, ?_⟩
  simp only [PathLayout.chars, spaced_append, List.append_assoc]

/-- A blank behind signs may be taken off: it is no part of the last sign. -/
theorem Written.of_concat (hc : isBlank c = true) (hsigns : ∀ sign ∈ signs, sign.Unblank)
    (hne : signs ≠ []) (h : Written signs (cs ++ [c])) : Written signs cs := by
  have hspace : isSpace c = true := by simp [isSpace, hc]
  obtain ⟨⟨front, pieces, last⟩, ⟨hfront, hgaps, hlast⟩, rfl, hchars⟩ := h
  rcases List.eq_nil_or_concat last with rfl | ⟨last, d, rfl⟩
  · -- Without anything behind it the last sign would end in a blank.
    rcases List.eq_nil_or_concat pieces with rfl | ⟨pieces, ⟨gap, sign⟩, rfl⟩
    · exact absurd rfl hne
    · obtain ⟨hnil, hunblank⟩ := hsigns sign (by simp [PathLayout.signs])
      rcases List.eq_nil_or_concat sign.text.toList with htext | ⟨front', d, htext⟩
      · exact absurd htext hnil
      · simp only [PathLayout.chars, List.concat_eq_append, spaced_concat, htext, List.append_nil,
          spaced_append, ← List.append_assoc] at hchars
        obtain rfl : d = c := by simpa using (List.append_inj' hchars rfl).2
        rw [hunblank d (by simp [htext])] at hc
        cases hc
  · simp only [PathLayout.chars, spaced_append, List.concat_eq_append, ← List.append_assoc]
      at hchars hlast
    obtain ⟨rfl, hd⟩ := List.append_inj' hchars rfl
    obtain rfl : d = c := by simpa using hd
    exact ⟨⟨front, pieces, last⟩,
      ⟨hfront, hgaps, (skipSpace_concat_eq_nil_iff hspace last).mp hlast⟩, rfl, rfl⟩

/-- Taking off the blanks around signs changes nothing. -/
theorem written_trimChars_iff (hsigns : ∀ sign ∈ signs, sign.Unblank) (hne : signs ≠ [])
    (cs : List Char) : Written signs (Text.trimChars cs) ↔ Written signs cs := by
  have hfront {blanks : List Char} (h : ∀ c ∈ blanks, isBlank c = true) (cs : List Char) :
      Written signs (blanks ++ cs) ↔ Written signs cs := by
    induction blanks with
    | nil => rfl
    | cons c blanks ih =>
        obtain ⟨hc, hblanks⟩ := List.forall_mem_cons.mp h
        exact Iff.trans ⟨.of_cons hc hsigns hne, .cons hc hne⟩ (ih hblanks)
  have hback {blanks : List Char} (h : ∀ c ∈ blanks, isBlank c = true) (cs : List Char) :
      Written signs (cs ++ blanks) ↔ Written signs cs := by
    induction blanks generalizing cs with
    | nil => rw [List.append_nil]
    | cons c blanks ih =>
        obtain ⟨hc, hblanks⟩ := List.forall_mem_cons.mp h
        rw [List.append_cons, ih hblanks]
        exact ⟨.of_concat hc hsigns hne, .concat hc⟩
  obtain ⟨before, after, hcs, hbefore, hafter⟩ := Text.exists_trimChars cs
  have hwhole : Written signs cs ↔ Written signs (before ++ (Text.trimChars cs ++ after)) := by
    rw [← hcs]
  rw [hwhole, hfront hbefore, hback hafter]

/-- Behind a byte order mark or without one. -/
theorem written_of_spaced {last : List Char} {pieces : List (List Char × PathSign)}
    (hgaps : ∀ piece ∈ pieces, Skipped piece.1) (hlast : skipSpace last = [])
    (hcs : spaced last pieces = Grammar.dropByteOrderMark cs) : Written (pieces.map (·.2)) cs := by
  cases cs with
  | nil => exact ⟨⟨[], pieces, last⟩, ⟨.inl rfl, hgaps, hlast⟩, rfl, hcs⟩
  | cons c cs =>
      by_cases hc : c = byteOrderMark
      · subst hc
        exact ⟨⟨[byteOrderMark], pieces, last⟩, ⟨.inr ⟨[], by simp, rfl⟩, hgaps, hlast⟩, rfl,
          congrArg (byteOrderMark :: ·) hcs⟩
      · rw [Grammar.dropByteOrderMark_of_head? (by simpa using hc)] at hcs
        exact ⟨⟨[], pieces, last⟩, ⟨.inl rfl, hgaps, hlast⟩, rfl, hcs⟩

end

end PathSign

namespace ItemPath

open PathSign (Written ofPath)
open TokenTree (byteOrderMark)
open Text (isBlank)

variable {t : String} {p : ItemPath}

/-- What is read was read from the tokens of the text. -/
theorem exists_tokens_of_parse? (h : parse? t = some p) : ∃ ts shape,
    TokenTree.ofText (Text.trimChars t.toList) = .ok ts ∧ Grammar.parsePathTokens ts = .ok shape ∧
      shape.plain = true ∧ shape.path.segments = p.segments := by
  have hchars : (Text.trim t).toList = Text.trimChars t.toList := String.toList_ofList
  obtain ⟨shape, hread, hplain, hsegments⟩ := exists_shape_of_parse? h
  rw [Grammar.parsePath, Grammar.readText, hchars] at hread
  split at hread
  · cases hread
  · next ts htokens => exact ⟨ts, shape, htokens, hread, hplain, hsegments⟩

theorem Spells.unblank (h : p.Spells Grammar.IsSegment) (leading : Bool) :
    (∀ sign ∈ ofPath leading p.segments, sign.Unblank) ∧ ofPath leading p.segments ≠ [] := by
  refine ⟨PathSign.unblank_ofPath fun w hw => Grammar.isWord_of_isSegment (h.words w hw), ?_⟩
  obtain ⟨w, ws, hsegments⟩ := List.exists_cons_of_ne_nil h.nonempty
  rw [hsegments]
  cases leading <;> simp [ofPath, PathSign.later]

/-- A text that is read as a path consists of the signs of the path. -/
theorem written_of_parse? (h : parse? t = some p) :
    ∃ leading, Written (ofPath leading p.segments) t.toList := by
  obtain ⟨ts, shape, htokens, hread, hplain, hsegments⟩ := exists_tokens_of_parse? h
  let leading := shape.path.leadingColon
  have hspans : Grammar.Spans (some (ofPath leading p.segments)) ts [] := by
    have hspans := Grammar.spans_of_parsePathTokens hread
    rwa [Grammar.PathShape.signs, if_pos hplain, hsegments] at hspans
  have hleaves : ∀ t ∈ ts, t.isLeaf = true := fun t member =>
    TokenTree.isLeaf_of_isOfPlainPath (Grammar.isOfPlainPath_of_parse hread hplain t member)
  obtain ⟨pos, hnest⟩ := TokenTree.exists_nest (Text.trimChars t.toList)
  obtain ⟨_, rfl, hfound⟩ := TokenTree.exists_leaves (hnest.symm.trans htokens) hleaves
  obtain ⟨pieces, last, hgaps, hlast, hsigns, hcs⟩ := PathSign.exists_spaced hspans hfound
  obtain ⟨hunblank, hne⟩ := (Spells.of_parse? h).unblank leading
  refine ⟨leading, (PathSign.written_trimChars_iff hunblank hne _).mp ?_⟩
  rw [← hsigns]
  exact PathSign.written_of_spaced hgaps hlast hcs

/-- A text that begins without a blank begins with its signs, behind a byte order mark at most. -/
theorem dropByteOrderMark_of_apart {l : PathLayout} (h : l.Apart) {leading : Bool} {w : String}
    {ws : List String} (hwords : ∀ v ∈ w :: ws, Grammar.IsSegment v)
    (hsigns : l.signs = ofPath leading (w :: ws))
    (hblank : ∀ c, l.chars.head? = some c → isBlank c = false) :
    Grammar.dropByteOrderMark l.chars = PathSign.spaced l.last l.pieces := by
  rcases l with ⟨front, pieces, last⟩
  obtain ⟨rfl | ⟨_ | ⟨c, blanks⟩, hblanks, rfl⟩, hgaps, -⟩ := h
  · exact Grammar.dropByteOrderMark_of_head? (Grammar.head?_spaced hgaps hwords hsigns)
  · rfl
  · have hc := hblanks c List.mem_cons_self
    rw [hblank c rfl] at hc
    cases hc

/-- The signs of a path are read as the path, however they are laid out. -/
theorem parse?_of_written (hspells : p.Spells Grammar.IsSegment) {leading : Bool}
    (hwritten : Written (ofPath leading p.segments) t.toList) : parse? t = some p := by
  obtain ⟨hunblank, hne⟩ := hspells.unblank leading
  obtain ⟨w, ws, hsegments⟩ := List.exists_cons_of_ne_nil hspells.nonempty
  have hwords : ∀ v ∈ w :: ws, Grammar.IsSegment v := hsegments ▸ hspells.words
  obtain ⟨l, hapart, hsigns, hchars⟩ := (PathSign.written_trimChars_iff hunblank hne _).mpr hwritten
  rw [hsegments] at hsigns
  have hcuts :
      TokenTree.Cuts (PathSign.spaced l.last l.pieces) [] (TokenTree.pathTrees leading w ws) :=
    .spaced_path hapart.gaps hapart.last (fun v hv =>
      Grammar.isWord_of_isSegment (hwords v hv)) hsigns
  have hblank : ∀ c, l.chars.head? = some c → isBlank c = false := fun c hc =>
    Text.isBlank_of_head?_trimChars (hchars ▸ hc)
  rw [← dropByteOrderMark_of_apart hapart hwords hsigns hblank, hchars] at hcuts
  obtain ⟨shape, hread, hplain, hshape⟩ := Grammar.readText_path hwords hcuts
  have htext : (Text.trim t).toList = Text.trimChars t.toList := String.toList_ofList
  rw [parse?, Grammar.parsePath, htext, hread]
  simp only [hplain, ↓reduceIte, hshape, ← hsegments]

/-- A text is read as a path just when it consists of the signs of the path, with or without colons
in front, and the words may stand in one. -/
theorem parse?_eq_some_iff : parse? t = some p ↔
    p.Spells Grammar.IsSegment ∧ ∃ leading, Written (ofPath leading p.segments) t.toList := by
  constructor
  · exact fun h => ⟨Spells.of_parse? h, written_of_parse? h⟩
  · rintro ⟨hspells, leading, hwritten⟩
    exact parse?_of_written hspells hwritten

/-- Any layout of the signs of a path is read as the path. -/
theorem parse?_text {l : PathLayout} (h : l.Apart) (hspells : p.Spells Grammar.IsSegment)
    {leading : Bool}
    (hsigns : l.signs = ofPath leading p.segments) : parse? l.text = some p :=
  parse?_of_written hspells ⟨l, h, hsigns, String.toList_ofList.symm⟩

/-- Blanks around a text are not read. -/
theorem parse?_blanks {before after : String} (hbefore : ∀ c ∈ before.toList, isBlank c = true)
    (hafter : ∀ c ∈ after.toList, isBlank c = true) (t : String) :
    parse? (before ++ t ++ after) = parse? t := by
  have htrim : Text.trim (before ++ t ++ after) = Text.trim t := by
    rw [Text.trim, Text.trim, String.toList_append, String.toList_append,
      Text.trimChars_append_blanks hafter, Text.trimChars_blanks_append hbefore]
  rw [parse?, parse?, htrim]

/-- A byte order mark begins the text, blanks aside. -/
def BeginsMarked (t : String) : Prop :=
  ∃ blanks rest, (∀ c ∈ blanks, isBlank c = true) ∧ t.toList = blanks ++ byteOrderMark :: rest

/-- Colons may be put in front of a path that has none there, unless they would come to stand in
front of a byte order mark. -/
theorem parse?_colons (h : parse? t = some p) (hmark : ¬ BeginsMarked t)
    (hcolons : startsWith "::" (skipSpace t.toList) = false) : parse? ("::" ++ t) = some p := by
  obtain ⟨hspells, leading, ⟨front, pieces, last⟩, ⟨hfront, hgaps, hlast⟩, hsigns, hchars⟩ :=
    parse?_eq_some_iff.mp h
  obtain rfl : front = [] := by
    refine hfront.resolve_right ?_
    rintro ⟨blanks, hblanks, rfl⟩
    exact hmark ⟨blanks, PathSign.spaced last pieces, hblanks,
      by rw [← hchars]; simp [PathLayout.chars]⟩
  obtain ⟨w, ws, hsegments⟩ := List.exists_cons_of_ne_nil hspells.nonempty
  cases leading with
  | true =>
      rw [hsegments] at hsigns
      obtain ⟨⟨gap, _⟩, pieces, rfl, rfl, -⟩ := List.map_eq_cons_iff.mp hsigns
      rw [← hchars] at hcolons
      change startsWith "::" (skipSpace (gap ++ ':' :: ':' :: PathSign.spaced last pieces)) =
          false at hcolons
      rw [hgaps _ List.mem_cons_self, skipSpace_stop rfl (by decide)] at hcolons
      cases hcolons
  | false =>
      have hwritten : Written (ofPath true p.segments) ("::" ++ t).toList := by
        refine ⟨⟨[], ([], .colons) :: pieces, last⟩, ⟨.inl rfl, ?_, hlast⟩, ?_, ?_⟩
        · exact List.forall_mem_cons.mpr ⟨TokenTree.Cuts.skipped_nil, hgaps⟩
        · have hsegmented : pieces.map (·.2) = ofPath false p.segments := hsigns
          rw [PathLayout.signs, List.map_cons, hsegmented, hsegments]
          rfl
        · rw [String.toList_append, ← hchars]
          rfl
      exact parse?_of_written hspells hwritten

/-- No text is read as a path whose tokens are not all words and colons. -/
theorem parse?_eq_none {ts : List TokenTree} (h : TokenTree.ofText (Text.trim t).toList = .ok ts)
    {token : TokenTree} (member : token ∈ ts)
    (htoken : token.isOfPlainPath = false) : parse? t = none := by
  cases hread : parse? t with
  | none => rfl
  | some p =>
      obtain ⟨ts', shape, htokens, hpath, hplain, -⟩ := exists_tokens_of_parse? hread
      rw [show (Text.trim t).toList = Text.trimChars t.toList from String.toList_ofList, htokens]
        at h
      obtain rfl := Except.ok.inj h
      rw [Grammar.isOfPlainPath_of_parse hpath hplain token member] at htoken
      cases htoken

theorem eq_of_display {p q : ItemPath} (hp : ∀ s ∈ p.segments, s ≠ "" ∧ ':' ∉ s.toList)
    (hq : ∀ s ∈ q.segments, s ≠ "" ∧ ':' ∉ s.toList) (h : p.display = q.display) : p = q := by
  rw [← GeneratedText.pathOf_display hp, h, GeneratedText.pathOf_display hq]

/-- Arguments of a segment begin here: in angle brackets or in parentheses. -/
def BeginsArguments (token : TokenTree) : Prop :=
  token.isAngle = true ∨ Grammar.atParen [token] = true

/-- Paths are printed and read consistently. What is read is read again from its display, and the
display of segments without colons tells paths apart. Blanks around a text, more blanks between
segments and colons, and any other layout of the same signs, give the same path, and so do colons in
front where there are none and no byte order mark is. Arguments are refused wherever they stand. -/
theorem parse?_consistent :
    (∀ t p, parse? t = some p → p.segments ≠ [] ∧ parse? p.display = some p) ∧
    (∀ p q : ItemPath, (∀ s ∈ p.segments, s ≠ "" ∧ ':' ∉ s.toList) →
      (∀ s ∈ q.segments, s ≠ "" ∧ ':' ∉ s.toList) → p.display = q.display → p = q) ∧
    (∀ t p, parse? t = some p →
      (∀ before after : String, (∀ c ∈ before.toList, isBlank c = true) →
        (∀ c ∈ after.toList, isBlank c = true) → parse? (before ++ t ++ after) = some p) ∧
      (¬ BeginsMarked t → startsWith "::" (skipSpace t.toList) = false →
        parse? ("::" ++ t) = some p) ∧
      (∃ l : PathLayout, l.text = t ∧ l.Apart ∧ (∃ leading, l.signs = ofPath leading p.segments) ∧
        (∀ before after : Nat → List Char, (∀ i, ∀ c ∈ before i, isBlank c = true) →
          (∀ i, ∀ c ∈ after i, isBlank c = true) → parse? (l.loosened before after).text = some p) ∧
        ∀ l' : PathLayout, l'.Apart → l'.signs = l.signs → parse? l'.text = some p)) ∧
    ∀ t ts, TokenTree.ofText (Text.trim t).toList = .ok ts → (∃ token ∈ ts, BeginsArguments token) →
      parse? t = none := by
  refine ⟨?_, fun p q => eq_of_display, ?_, ?_⟩
  · intro t p h
    exact ⟨ne_nil_of_parse? h, (parse?_display_iff p).mpr (Spells.of_parse? h)⟩
  · intro t p h
    obtain ⟨hspells, leading, l, hapart, hsigns, hchars⟩ := parse?_eq_some_iff.mp h
    refine ⟨?_, parse?_colons h, l, ?_, hapart, ⟨leading, hsigns⟩, ?_, ?_⟩
    · exact fun before after hbefore hafter => (parse?_blanks hbefore hafter t).trans h
    · rw [PathLayout.text, hchars, String.ofList_toList]
    · exact fun before after hbefore hafter => parse?_text (hapart.loosened hbefore hafter) hspells
        ((l.signs_loosened before after).trans hsigns)
    · exact fun l' hapart' hsigns' => parse?_text hapart' hspells (hsigns'.trans hsigns)
  · rintro t ts htokens ⟨token, member, harguments⟩
    refine parse?_eq_none htokens member ?_
    rcases harguments with hangle | hparen
    · rcases token with
          ⟨pos, _ | ⟨c, joint⟩ | _⟩ | _ <;> simp_all [TokenTree.isAngle, TokenTree.isOfPlainPath]
    · rcases token with ⟨pos, _ | _ | _⟩ | _ <;>
          simp_all [Grammar.atParen, Grammar.atGroup, TokenTree.isOfPlainPath]

/-- A path with a comment and a raw word in it. -/
theorem parse?_consistent_amid_comments :
    let p : ItemPath := ⟨["a", "r#type"]⟩
    parse? "a /* b */::r#type" = some p ∧ parse? p.display = some p ∧
      parse? "\u2003a /* b */::r#type\n" = some p ∧ parse? "::a /* b */::r#type" = some p ∧
      parse? "a /* b */::<r#type>" = none := by
  intro p
  have hread : parse? "a /* b */::r#type" = some p := by decide +kernel
  obtain ⟨hkept, -, hsame, hrefused⟩ := parse?_consistent
  obtain ⟨haround, hcolons, -⟩ := hsame _ _ hread
  have hmark : ¬ BeginsMarked "a /* b */::r#type" := by
    rintro ⟨_ | ⟨c, blanks⟩, rest, hblanks, hchars⟩
    · exact absurd (List.cons.inj hchars).1 (by decide)
    · obtain rfl : 'a' = c := (List.cons.inj hchars).1
      exact absurd (hblanks 'a' List.mem_cons_self) (by decide)
  have hangle : (TokenTree.ofText (Text.trim "a /* b */::<r#type>").toList).toOption.any
      (·.any TokenTree.isAngle) = true := by decide +kernel
  obtain ⟨ts, htokens, hany⟩ := Pass.exists_ok_of_any hangle
  obtain ⟨token, member, htoken⟩ := List.any_eq_true.mp hany
  exact ⟨hread, (hkept _ _ hread).2,
    haround "\u2003" "\n" (List.all_eq_true.mp (by decide)) (List.all_eq_true.mp (by decide)),
    hcolons hmark (by decide +kernel),
    hrefused _ ts htokens ⟨token, member, .inl htoken⟩⟩

/-- Colons in front of a byte order mark spoil a path, and so do colons in front of others. -/
theorem parse?_spoilt_by_colons :
    (parse? "\ufeffa" = some ⟨["a"]⟩ ∧ parse? "::\ufeffa" = none) ∧
    parse? " ::a" = some ⟨["a"]⟩ ∧ parse? ":: ::a" = none := by
  decide +kernel

end ItemPath

end MarkerIndex
