import MarkerIndex.Grammar.File
import MarkerIndex.Proofs.GeneratedText
import MarkerIndex.Proofs.Unplaced
/-!
From the characters of a text to its token trees. `Cuts` says that a stretch of characters is a row
of trees, whatever stands in front of it and whatever brackets are open there, so that a text can be
cut piece by piece. What follows a piece matters only by its first character: a word ends where it
cannot go on.
-/

namespace MarkerIndex

namespace Scan

open MarkerIndex.Text

theorem skipSpace_of_step {cs rest : List Char} (h : spaceStep cs = some rest)
    (hlt : rest.length < cs.length) : skipSpace cs = skipSpace rest := by
  rw [skipSpace, h]
  simp only [hlt, ↓reduceIte]

theorem skipSpace_of_none {cs : List Char} (h : spaceStep cs = none) : skipSpace cs = cs := by
  rw [skipSpace, h]

theorem skipSpace_space {c : Char} (h : isSpace c = true) (cs : List Char) :
    skipSpace (c :: cs) = skipSpace cs :=
  skipSpace_of_step (by simp [spaceStep, h]) (by simp)

/-- The characters are blanks and plain comments, whatever follows them. -/
def Skipped (blank : List Char) : Prop :=
  ∀ cs, skipSpace (blank ++ cs) = skipSpace cs

theorem Skipped.append {blank more : List Char} (h : Skipped blank) (hmore : Skipped more) :
    Skipped (blank ++ more) := by
  intro cs
  rw [List.append_assoc, h, hmore]

/-- A text of blanks. -/
theorem Skipped.spaces (text : String) (h : text.toList.all isSpace = true) :
    Skipped text.toList := by
  intro cs
  generalize text.toList = blank at h
  induction blank with
  | nil => rfl
  | cons c blank ih =>
      rw [List.all_cons, Bool.and_eq_true] at h
      rw [List.cons_append, skipSpace_space h.1, ih h.2]

/-- What begins no blank and no comment is not skipped. -/
theorem skipSpace_stop {c : Char} (h : isSpace c = false) (hslash : c ≠ '/') (cs : List Char) :
    skipSpace (c :: cs) = c :: cs := by
  apply skipSpace_of_none
  simp [spaceStep, h, plainComment, startsWith, afterText, Ne.symm hslash]

/-- A line without line breaks is read up to its end. -/
theorem line_append {line : List Char} (hline : '\n' ∉ line) (hreturn : '\r' ∉ line)
    (rest : List Char) : lineEnd (line ++ '\n' :: rest) = '\n' :: rest ∧
      lineText (line ++ '\n' :: rest) = line ∧ returnsPaired line = true := by
  induction line with
  | nil => simp [lineEnd, lineText, returnsPaired]
  | cons c line ih =>
      obtain ⟨hc, hline⟩ : '\n' ≠ c ∧ '\n' ∉ line := by simpa using hline
      obtain ⟨hc', hreturn⟩ : '\r' ≠ c ∧ '\r' ∉ line := by simpa using hreturn
      obtain ⟨hend, htext, hpaired⟩ := ih hline hreturn
      simp [lineEnd, lineText, returnsPaired, Ne.symm hc, Ne.symm hc', hend, htext, hpaired]

/-- A comment up to the end of its line. The blank keeps it from documenting anything. -/
theorem Skipped.comment {text : List Char} (htext : '\n' ∉ text) (hreturn : '\r' ∉ text) :
    Skipped ('/' :: '/' :: ' ' :: (text ++ ['\n'])) := by
  intro cs
  let line := '/' :: '/' :: ' ' :: text
  have hline : '\n' ∉ line := by simp [line, htext]
  obtain ⟨hend, -, -⟩ := line_append hline (by simp [line, hreturn]) cs
  have hcs : '/' :: '/' :: ' ' :: (text ++ ['\n']) ++ cs = line ++ '\n' :: cs := by simp [line]
  have hstep : spaceStep (line ++ '\n' :: cs) = some (lineEnd (line ++ '\n' :: cs)) := rfl
  rw [hend] at hstep
  have hlt : ('\n' :: cs).length < (line ++ '\n' :: cs).length := by
    rw [List.length_append]
    exact Nat.lt_add_of_pos_left (by simp [line])
  rw [hcs, skipSpace_of_step hstep hlt, skipSpace_space rfl]

section

variable {b c : Char} {cs rest : List Char}

/-- The blanks by their numbers. -/
def spaces : List Nat :=
  [9, 10, 11, 12, 13, 0x20, 0x85, 0xa0, 0x1680, 0x2000, 0x2001, 0x2002, 0x2003, 0x2004,
    0x2005, 0x2006,
    0x2007, 0x2008, 0x2009, 0x200a, 0x2028, 0x2029, 0x202f, 0x205f, 0x3000, 0x200e, 0x200f]

theorem mem_spaces_of_isSpace (h : isSpace c = true) : c.toNat ∈ spaces := by
  simp only [isSpace, isBlank, Bool.or_eq_true, Bool.and_eq_true, decide_eq_true_eq] at h
  simp only [spaces, List.mem_cons, List.not_mem_nil, or_false]
  rcases h with (h | rfl) | rfl
  · omega
  · decide
  · decide

/-- What is true of the blanks by their numbers is true of every blank. -/
theorem of_isSpace {P : Char → Prop} (hall : ∀ n ∈ spaces, P (Char.ofNat n))
    (h : isSpace c = true) :
    P c := by
  have hc := hall c.toNat (mem_spaces_of_isSpace h)
  rwa [Char.ofNat_toNat] at hc

theorem isSpace_of_isIdentStart (h : isIdentStart b = true) : isSpace b = false := by
  refine Bool.eq_false_iff.mpr fun hspace => ?_
  have hnone : isIdentStart b = false :=
    of_isSpace (P := fun c => isIdentStart c = false) (by decide +kernel) hspace
  rw [hnone] at h
  cases h

theorem isPunct_of_isIdentStart (h : isIdentStart b = true) : isPunct b = false := by
  have hnone : "~!@#$%^&*-=+|;:,<.>/?'".toList.all (!isIdentStart ·) = true := by decide
  cases hpunct : isPunct b with
  | false => rfl
  | true =>
      have hb := List.all_eq_true.mp hnone b (List.contains_iff_mem.mp hpunct)
      simp [h] at hb

theorem isDigit_of_isIdentStart (h : isIdentStart b = true) : b.isDigit = false := by
  have hnone : ∀ n < 10, isIdentStart (Char.ofNat (48 + n)) = false := by decide
  cases hdigit : b.isDigit with
  | false => rfl
  | true =>
      simp only [Char.isDigit, Bool.and_eq_true, decide_eq_true_eq, ge_iff_le,
        UInt32.le_iff_toNat_le] at hdigit
      have hlow : 48 ≤ b.toNat := hdigit.1
      have hhigh : b.toNat ≤ 57 := hdigit.2
      have hb := hnone (b.toNat - 48) (by omega)
      rw [Nat.add_sub_cancel' hlow, Char.ofNat_toNat] at hb
      rw [hb] at h
      cases h

theorem hexValue?_of_isIdentStart (h : isIdentStart b = true) {n : Nat}
    (hvalue : Quoted.hexValue? b = some n) : 10 ≤ n := by
  have hdigit := isDigit_of_isIdentStart h
  simp only [Quoted.hexValue?] at hvalue
  split at hvalue
  · next hrange =>
      simp only [Char.isDigit, Bool.and_eq_false_iff, decide_eq_false_iff_not, ge_iff_le] at hdigit
      rcases hdigit with hlow | hhigh
      · exact absurd hrange.1 hlow
      · exact absurd hrange.2 hhigh
  · split at hvalue
    · have := Option.some.inj hvalue
      omega
    · split at hvalue
      · have := Option.some.inj hvalue
        omega
      · cases hvalue

/-- A raw text begins with its marks and a quote. -/
theorem rawQuoted_eq_none {allowed : Char → Bool} (hquote : startsWith "\"" cs = false)
    (hmark : startsWith "#\"" cs = false) (hmarks : startsWith "##" cs = false) :
    rawQuoted allowed cs = none := by
  match cs with
  | [] => rfl
  | [c] =>
      by_cases hc : c = '#'
      · subst hc; rfl
      · have hne : c ≠ '"' := by rintro rfl; simp [startsWith, afterText] at hquote
        simp [rawQuoted, hc, hne]
  | c :: d :: rest =>
      have hne : c ≠ '"' := by rintro rfl; simp [startsWith, afterText] at hquote
      by_cases hc : c = '#'
      · subst hc
        have hd : d ≠ '"' := by rintro rfl; simp [startsWith, afterText] at hmark
        have hd' : d ≠ '#' := by rintro rfl; simp [startsWith, afterText] at hmarks
        simp [rawQuoted, hd, hd']
      · simp [rawQuoted, hc, hne]

theorem rawQuoted_eq_none_of_unmarked {allowed : Char → Bool} (hquote : startsWith "\"" cs = false)
    (hmark : startsWith "#" cs = false) : rawQuoted allowed cs = none := by
  cases cs with
  | nil => rfl
  | cons c rest =>
      have hquote : c ≠ '"' := by rintro rfl; simp [startsWith, afterText] at hquote
      have hmark : c ≠ '#' := by rintro rfl; simp [startsWith, afterText] at hmark
      simp [rawQuoted, hquote, hmark]

theorem stringLiteral_eq_none (hb : isIdentStart b = true)
    (hmarks : ∀ mark ∈ quoteMarks, startsWith mark (b :: cs) = false) :
    stringLiteral (b :: cs) = none := by
  unfold stringLiteral
  split
  · next heq =>
      cases heq
      exact absurd hb (by decide)
  · next rest heq =>
      cases heq
      have hquote := hmarks "r\"" (by simp [quoteMarks])
      have hmark := hmarks "r#\"" (by simp [quoteMarks])
      have hmore := hmarks "r##" (by simp [quoteMarks])
      simp only [startsWith] at hquote hmark hmore
      exact rawQuoted_eq_none hquote hmark hmore
  · next rest heq =>
      cases heq
      simpa [startsWith, afterText] using hmarks "b\"" (by simp [quoteMarks])
  · next rest heq =>
      cases heq
      have hquote := hmarks "br\"" (by simp [quoteMarks])
      have hmark := hmarks "br#" (by simp [quoteMarks])
      simp only [startsWith] at hquote hmark
      exact rawQuoted_eq_none_of_unmarked hquote hmark
  · next rest heq =>
      cases heq
      simpa [startsWith, afterText] using hmarks "c\"" (by simp [quoteMarks])
  · next rest heq =>
      cases heq
      have hquote := hmarks "cr\"" (by simp [quoteMarks])
      have hmark := hmarks "cr#" (by simp [quoteMarks])
      simp only [startsWith] at hquote hmark
      exact rawQuoted_eq_none_of_unmarked hquote hmark
  · rfl

theorem characterLiteral_eq_none (hb : isIdentStart b = true)
    (hmarks : ∀ mark ∈ quoteMarks, startsWith mark (b :: cs) = false) :
    characterLiteral (b :: cs) = none := by
  have hapostrophe : b ≠ '\'' := by
    rintro rfl
    exact absurd hb (by decide)
  have hbyte := hmarks "b'" (by simp [quoteMarks])
  unfold characterLiteral
  split
  · next heq => exact absurd (List.cons.inj heq).1 hapostrophe
  · next heq => exact absurd (List.cons.inj heq).1 hapostrophe
  · next heq => simp [heq, startsWith, afterText] at hbyte
  · next heq => simp [heq, startsWith, afterText] at hbyte
  · rfl

theorem integer_eq_none (hb : isIdentStart b = true) : integer (b :: cs) = none := by
  have hzero : '0' ≠ b := by
    rintro rfl
    exact absurd hb (by decide)
  have hdigits : digits 10 true (b :: cs) = none := by
    simp only [digits, isDigit_of_isIdentStart hb, Bool.false_eq_true, ↓reduceIte]
    split
    · simp
    · split
      · next n hvalue =>
          have := hexValue?_of_isIdentStart hb hvalue
          rw [if_neg (by omega)]
      · rfl
  simp [integer, startsWith, afterText, hzero, hdigits]

theorem literal_eq_none (hb : isIdentStart b = true)
    (hmarks : ∀ mark ∈ quoteMarks, startsWith mark (b :: cs) = false) :
    literal (b :: cs) = none := by
  have hfractional : fractional (b :: cs) = none := by simp [fractional, isDigit_of_isIdentStart hb]
  simp [literal, stringLiteral_eq_none hb hmarks, characterLiteral_eq_none hb hmarks, hfractional,
    integer_eq_none hb]

/-- The character ahead neither goes on with a word nor makes it the mark of something quoted. -/
def Parts : List Char → Prop
  | [] => True
  | c :: _ => isIdentContinue c = false ∧ c ≠ '"' ∧ c ≠ '\'' ∧ c ≠ '#'

instance (c : Char) (rest : List Char) : Decidable (Parts (c :: rest)) :=
  inferInstanceAs (Decidable (_ ∧ _))

/-- What is left of a text that a word begins, is a character that the word cannot go on with. -/
theorem before_append (cs rest : List Char) : before (cs ++ rest) rest = cs := by
  simp [before]

theorem exists_of_startsWith {text : String} (h : startsWith text cs = true) :
    ∃ more, cs = text.toList ++ more := by
  obtain ⟨more, hmore⟩ := Option.isSome_iff_exists.mp h
  exact ⟨more, exists_of_afterText hmore⟩

/-- The marks of quoted texts: letters, and what is no part of a word. -/
theorem quoteMarks_shape : ∀ mark ∈ quoteMarks, ∃ letters stop more,
    mark.toList = letters ++ stop :: more ∧ (∀ c ∈ letters, isIdentContinue c = true) ∧
      isIdentContinue stop = false ∧ stop ∈ ['"', '\'', '#'] := by
  have hall : ∀ mark ∈ quoteMarks, (mark.toList.dropWhile isIdentContinue).head?.any
      (fun c => !isIdentContinue c && ['"', '\'', '#'].contains c) = true := by decide
  intro mark hmark
  have h := hall mark hmark
  cases hdrop : mark.toList.dropWhile isIdentContinue with
  | nil => simp [hdrop] at h
  | cons stop more =>
      refine ⟨mark.toList.takeWhile isIdentContinue, stop, more, ?_, ?_, ?_⟩
      · rw [← hdrop, List.takeWhile_append_dropWhile]
      · exact fun c hc => List.mem_takeWhile_imp hc
      · simpa [hdrop] using h

/-- A plain word and what parts from it never begin like a quoted text. -/
theorem startsWith_mark_plain (hcs : ∀ c ∈ cs, isIdentContinue c = true) (hrest : Parts rest) :
    ∀ mark ∈ quoteMarks, startsWith mark (cs ++ rest) = false := by
  intro mark hmark
  cases hstarts : startsWith mark (cs ++ rest) with
  | false => rfl
  | true =>
      obtain ⟨more, hmore⟩ := exists_of_startsWith hstarts
      obtain ⟨letters, stop, after, hshape, hletters, hstop, hquote⟩ := quoteMarks_shape mark hmark
      -- both are the same letters in front of what is no part of a word
      have hdrop := congrArg (List.dropWhile isIdentContinue) hmore
      rw [hshape, List.append_assoc, List.cons_append, List.dropWhile_append_of_pos hletters,
        List.dropWhile_cons_of_neg (by simp [hstop]), List.dropWhile_append_of_pos hcs] at hdrop
      cases rest with
      | nil => simp at hdrop
      | cons c rest =>
          rw [List.dropWhile_cons_of_neg (by simp [hrest.1])] at hdrop
          obtain rfl : c = stop := (List.cons.inj hdrop).1
          simp [hrest.2] at hquote

theorem wordEnd_eq_some_nil_iff : wordEnd cs = some [] ↔ ∃ b tail, cs = b :: tail ∧
    isIdentStart b = true ∧ ∀ c ∈ tail, isIdentContinue c = true := by
  cases cs with
  | nil => simp [wordEnd]
  | cons b tail => simp [wordEnd, List.dropWhile_eq_nil_iff]

theorem isIdentContinue_of_isIdentStart (h : isIdentStart b = true) : isIdentContinue b = true := by
  unfold isIdentStart at h
  unfold isIdentContinue
  split_ifs at h ⊢
  · simp only [Bool.or_eq_true, Char.isAlphanum] at h ⊢
    exact h.imp_left Or.inl
  · simp [h]

theorem wordEnd_append (hcs : wordEnd cs = some []) (hrest : Parts rest) :
    wordEnd (cs ++ rest) = some rest := by
  obtain ⟨b, tail, rfl, hb, htail⟩ := wordEnd_eq_some_nil_iff.mp hcs
  rw [List.cons_append, wordEnd, if_pos hb, List.dropWhile_append_of_pos htail]
  cases rest with
  | nil => rfl
  | cons c rest => rw [List.dropWhile_cons_of_neg (by simp [hrest.1])]

/-- What begins a word, raw or not, and parts from what follows is no quoted text. -/
theorem startsWith_mark (h : nameEnd cs = some []) (hrest : Parts rest) :
    ∀ mark ∈ quoteMarks, startsWith mark (cs ++ rest) = false := by
  unfold nameEnd at h
  split at h
  · next hraw =>
      obtain ⟨body, rfl⟩ := exists_of_startsWith hraw
      have hbody : wordEnd body = some [] := (Option.filter_eq_some_iff.mp h).1
      obtain ⟨b, tail, rfl, hb, -⟩ := wordEnd_eq_some_nil_iff.mp hbody
      have hquote : '"' ≠ b := by rintro rfl; exact absurd hb (by decide)
      have hmark : '#' ≠ b := by rintro rfl; exact absurd hb (by decide)
      simp [quoteMarks, startsWith, afterText, hquote, hmark]
  · obtain ⟨b, tail, rfl, hb, htail⟩ := wordEnd_eq_some_nil_iff.mp h
    exact startsWith_mark_plain
      (List.forall_mem_cons.mpr ⟨isIdentContinue_of_isIdentStart hb, htail⟩) hrest

theorem nameEnd_append (h : nameEnd cs = some []) (hrest : Parts rest) :
    nameEnd (cs ++ rest) = some rest := by
  unfold nameEnd at h
  split at h
  · next hraw =>
      obtain ⟨body, rfl⟩ := exists_of_startsWith hraw
      obtain ⟨hbody, hnever⟩ := Option.filter_eq_some_iff.mp h
      have hword : wordEnd body = some [] := hbody
      have hdrop : ∀ more : List Char, ("r#".toList ++ more).drop 2 = more := fun _ => rfl
      have hstarts : startsWith "r#" ("r#".toList ++ (body ++ rest)) = true := rfl
      rw [hdrop, ← List.append_nil body, before_append] at hnever
      rw [List.append_assoc, nameEnd, if_pos hstarts, hdrop, wordEnd_append hword hrest,
        Option.filter_some, before_append]
      simpa using hnever
  · next hplain =>
      obtain ⟨b, tail, rfl, hb, htail⟩ := wordEnd_eq_some_nil_iff.mp h
      have hraw : ¬ startsWith "r#" (b :: tail ++ rest) = true := by
        intro hstarts
        obtain ⟨more, hmore⟩ := exists_of_startsWith hstarts
        have hmark : isIdentContinue '#' = false := by decide
        cases tail with
        | nil =>
            obtain ⟨rfl, rfl⟩ : b = 'r' ∧ rest = '#' :: more := by simpa using hmore
            exact hrest.2.2.2 rfl
        | cons d tail =>
            obtain ⟨rfl, rfl, -⟩ : b = 'r' ∧ d = '#' ∧ _ := by simpa using hmore
            rw [htail '#' (by simp)] at hmark
            cases hmark
      rw [nameEnd, if_neg hraw, wordEnd_append h hrest]

end

end Scan

namespace Lexeme

open Scan Text

variable {c : Char} {cs rest : List Char}

theorem docComment_eq_none (h : c ≠ '/') : docComment (c :: cs) = none := by
  simp [docComment, startsWith, afterText, Ne.symm h]

/-- Where no comment and no bracket begins stands a leaf. -/
theorem next?_of_leaf? (hslash : c ≠ '/') (hopen : opening? c = none) (hclose : closing? c = none)
    (pos : Position) : next? pos (c :: cs) =
      (leaf? (c :: cs)).map fun (token, rest) => (.leaf pos token, rest) := by
  simp only [next?, docComment_eq_none hslash, opened?, hopen, hclose, ite_self]

theorem exists_cons_of_isWord {word : String} (h : IsWord word) :
    ∃ b tail, word.toList = b :: tail ∧ isIdentStart b = true := by
  unfold IsWord nameEnd at h
  split at h
  · next hraw =>
      obtain ⟨body, hbody⟩ := exists_of_startsWith hraw
      exact ⟨'r', '#' :: body, hbody, by decide⟩
  · obtain ⟨b, tail, hcs, hb, -⟩ := wordEnd_eq_some_nil_iff.mp h
    exact ⟨b, tail, hcs, hb⟩

theorem leaf?_word {text : String} (h : IsWord text) (hrest : Parts rest) :
    leaf? (text.toList ++ rest) = some (.word text, rest) := by
  obtain ⟨b, tail, htext, hb⟩ := exists_cons_of_isWord h
  have hmarks := startsWith_mark h hrest
  have hname : word (text.toList ++ rest) = some rest := by
    have hnone : quoteMarks.any (startsWith · (text.toList ++ rest)) = false := by
      simpa using hmarks
    rw [word, hnone]
    exact nameEnd_append h hrest
  have hliteral : literal (text.toList ++ rest) = none := by
    rw [htext, List.cons_append] at hmarks ⊢
    exact literal_eq_none hb hmarks
  have hpunct : punctChar (text.toList ++ rest) = none := by
    have hslash : '/' ≠ b := by
      rintro rfl
      exact absurd hb (by decide)
    rw [htext, List.cons_append]
    simp [punctChar, startsWith, afterText, hslash, isPunct_of_isIdentStart hb]
  simp [leaf?, hliteral, hpunct, hname, before_append]

end Lexeme

theorem Grammar.dropByteOrderMark_of_head? {cs : List Char}
    (h : cs.head? ≠ some TokenTree.byteOrderMark) : dropByteOrderMark cs = cs := by
  cases cs with
  | nil => rfl
  | cons c cs => exact if_neg (by simpa using h)

namespace TokenTree

open Scan Text

/-- Nests what is cut from the characters, inside of brackets that are open. -/
def nest (pos : Position) (cs : List Char) (current : List TokenTree) (stack : List Open) :
    Except Position (List TokenTree) :=
  assemble (Lexeme.ofChars pos cs).2 current stack (Lexeme.ofChars pos cs).1

/-- The tokens of a text are those behind its byte order mark, if it has one. -/
theorem exists_nest (cs : List Char) :
    ∃ pos, ofText cs = nest pos (Grammar.dropByteOrderMark cs) [] [] := by
  cases cs with
  | nil => exact ⟨.first, rfl⟩
  | cons c cs =>
      by_cases hc : c = byteOrderMark
      · refine ⟨Position.first.step c, ?_⟩
        simp only [ofText, Grammar.dropByteOrderMark, hc, ↓reduceIte, nest]
      · refine ⟨.first, ?_⟩
        simp only [ofText, Grammar.dropByteOrderMark, hc, ↓reduceIte, nest]

/-- Up to `rest` the characters are trees, wherever they stand and whatever brackets are open. -/
def Cuts (cs rest : List Char) (trees : List TokenTree) : Prop :=
  ∀ pos current stack, ∃ later found, unplacedAll found = trees ∧
    nest pos cs current stack = nest later rest (found.reverse ++ current) stack

namespace Cuts

variable {cs ahead rest : List Char} {trees more : List TokenTree}

theorem nil : Cuts cs cs [] :=
  fun pos _ _ => ⟨pos, [], rfl, rfl⟩

theorem append (h : Cuts cs ahead trees) (hmore : Cuts ahead rest more) :
    Cuts cs rest (trees ++ more) := by
  intro pos current stack
  obtain ⟨middle, found, rfl, hfound⟩ := h pos current stack
  obtain ⟨later, others, rfl, hothers⟩ := hmore middle (found.reverse ++ current) stack
  refine ⟨later, found ++ others, by simp [unplacedAll_eq_map], ?_⟩
  rw [hfound, hothers, List.reverse_append, List.append_assoc]

/-- A text goes on with its next lexeme. -/
theorem exists_ofChars (hskip : skipSpace cs = ahead) (hne : ahead ≠ [])
    (hlt : rest.length < cs.length) {lexeme : Position → Lexeme}
    (hnext : ∀ pos, Lexeme.next? pos ahead = some (lexeme pos, rest)) (pos : Position) :
    ∃ here later, Lexeme.ofChars pos cs =
      (lexeme here :: (Lexeme.ofChars later rest).1, (Lexeme.ofChars later rest).2) := by
  let here := pos.advance (before cs ahead)
  refine ⟨here, here.advance (before ahead rest), ?_⟩
  rw [Lexeme.ofChars, hskip]
  simp only [List.isEmpty_eq_false_iff.mpr hne, Bool.false_eq_true, ↓reduceIte, hnext, hlt, here]

theorem leaf (hskip : skipSpace cs = ahead) (hne : ahead ≠ []) (hlt : rest.length < cs.length)
    {token : Leaf} (hnext : ∀ pos, Lexeme.next? pos ahead = some (.leaf pos token, rest)) :
    Cuts cs rest [.leaf .first token] := by
  intro pos current stack
  obtain ⟨here, later, hchars⟩ := exists_ofChars hskip hne hlt hnext pos
  refine ⟨later, [.leaf here token], rfl, ?_⟩
  rw [nest, hchars]
  rfl

/-- A documentation comment is an attribute. -/
theorem doc (hskip : skipSpace cs = ahead) (hne : ahead ≠ []) (hlt : rest.length < cs.length)
    {text : String} {last : Position → Position}
    (hnext : ∀ pos, Lexeme.next? pos ahead = some (.doc pos (last pos) false text, rest)) :
    Cuts cs rest (unplacedAll (ofDoc .first .first false text)) := by
  intro pos current stack
  obtain ⟨here, later, hchars⟩ := exists_ofChars hskip hne hlt hnext pos
  refine ⟨later, ofDoc here (last here) false text, rfl, ?_⟩
  rw [nest, hchars]
  rfl

/-- What stands between two brackets is a group. -/
theorem group {delimiter : Delimiter} {inside close behind : List Char}
    (hskip : skipSpace cs = ahead) (hne : ahead ≠ []) (hlt : inside.length < cs.length)
    (hopen : ∀ pos, Lexeme.next? pos ahead = some (.opening pos delimiter, inside))
    (hinside : Cuts inside behind trees) (hskip' : skipSpace behind = close) (hne' : close ≠ [])
    (hlt' : rest.length < behind.length)
    (hclose : ∀ pos, Lexeme.next? pos close = some (.closing pos delimiter, rest)) :
    Cuts cs rest [.group delimiter .first .first trees] := by
  intro pos current stack
  obtain ⟨here, first, hchars⟩ := exists_ofChars hskip hne hlt hopen pos
  obtain ⟨last, found, rfl, hfound⟩ := hinside first [] (⟨delimiter, here, current⟩ :: stack)
  obtain ⟨there, later, hchars'⟩ := exists_ofChars hskip' hne' hlt' hclose last
  refine ⟨later, [.group delimiter here there found], by simp [unplacedAll, unplaced], ?_⟩
  rw [nest, hchars]
  change nest first inside [] (⟨delimiter, here, current⟩ :: stack) = _
  rw [hfound, nest, hchars']
  simp [assemble, nest]

/-- A text that is cut up to its end, behind a byte order mark if there is one. -/
theorem ofText_behind_mark (h : Cuts (Grammar.dropByteOrderMark cs) [] trees) :
    ∃ found, TokenTree.ofText cs = .ok found ∧ unplacedAll found = trees := by
  obtain ⟨pos, hpos⟩ := exists_nest cs
  obtain ⟨later, found, hfound, hnest⟩ := h pos [] []
  refine ⟨found, ?_, hfound⟩
  have hend : Lexeme.ofChars later [] = ([], none) := by
    rw [Lexeme.ofChars, skipSpace_of_none (show spaceStep [] = none from rfl)]
    rfl
  rw [hpos, hnest, nest, hend]
  simp [assemble]

theorem ofText (h : Cuts cs [] trees) (hmark : cs.head? ≠ some byteOrderMark) :
    ∃ found, TokenTree.ofText cs = .ok found ∧ unplacedAll found = trees :=
  ofText_behind_mark (by rwa [Grammar.dropByteOrderMark_of_head? hmark])

section

variable {blank : List Char} {c : Char}

theorem ofLeaf (hblank : Skipped blank) (hspace : isSpace c = false)
    (hslash : c ≠ '/') (hopen : Lexeme.opening? c = none) (hclose : Lexeme.closing? c = none)
    {token : Leaf}
    (hleaf : Lexeme.leaf? (c :: cs) = some (token, rest)) (hlt : rest.length ≤ cs.length) :
    Cuts (blank ++ c :: cs) rest [.leaf .first token] := by
  refine leaf ((hblank _).trans (skipSpace_stop hspace hslash cs)) (by simp) ?_ ?_
  · simp only [List.length_append, List.length_cons]
    omega
  · intro pos
    rw [Lexeme.next?_of_leaf? hslash hopen hclose, hleaf]
    rfl

theorem ofWord (hblank : Skipped blank) {text : String} (hword : IsWord text)
    (hrest : Parts rest) :
    Cuts (blank ++ (text.toList ++ rest)) rest [.leaf .first (.word text)] := by
  obtain ⟨b, tail, htext, hb⟩ := Lexeme.exists_cons_of_isWord hword
  have hleaf := Lexeme.leaf?_word hword hrest
  rw [htext, List.cons_append] at hleaf ⊢
  refine ofLeaf hblank (isSpace_of_isIdentStart hb) ?_ ?_ ?_ hleaf (by simp)
  · rintro rfl
    exact absurd hb (by decide)
  · unfold Lexeme.opening?
    split
    all_goals first | rfl | exact absurd hb (by decide)
  · unfold Lexeme.closing?
    split
    all_goals first | rfl | exact absurd hb (by decide)

/-- A text literal that a text was quoted as. -/
theorem ofQuoted (hblank : Skipped blank) (text : String) {d : Char}
    (hd : isIdentStart d = false) :
    Cuts (blank ++ ((Quoted.encode text).toList ++ d :: rest)) (d :: rest)
      [.leaf .first (.literal (Quoted.encode text))] := by
  have htext :
      (Quoted.encode text).toList = '"' :: (text.toList.flatMap Quoted.escape ++ ['"']) := by
    simp [Quoted.encode, Quoted.encodeChars]
  have hliteral : literal ((Quoted.encode text).toList ++ d :: rest) = some (d :: rest) := by
    have hread := Quoted.read_escapes text.toList (d :: rest)
    have hstring : stringLiteral ((Quoted.encode text).toList ++ d :: rest) = some (d :: rest) := by
      rw [htext, List.cons_append, List.append_assoc, List.singleton_append]
      simp [stringLiteral, quotedEnd, hread, suffixEnd, wordEnd, hd]
    simp [literal, hstring]
  have hleaf : Lexeme.leaf? ((Quoted.encode text).toList ++ d :: rest) =
      some (.literal (Quoted.encode text), d :: rest) := by
    simp [Lexeme.leaf?, hliteral, before_append]
  rw [htext, List.cons_append] at hleaf ⊢
  refine ofLeaf hblank rfl (by decide) rfl rfl hleaf ?_
  rw [List.length_append]
  exact Nat.le_add_left _ _

theorem of_opened? {delimiter : Delimiter} (h : Lexeme.opened? c cs = some delimiter) :
    isSpace c = false ∧ c ≠ '/' := by
  unfold Lexeme.opened? at h
  split at h
  · cases h
  · unfold Lexeme.opening? at h
    split at h
    · decide
    · decide
    · decide
    · cases h

theorem of_closing? {delimiter : Delimiter} (h : Lexeme.closing? c = some delimiter) :
    isSpace c = false ∧ c ≠ '/' ∧ Lexeme.opening? c = none := by
  unfold Lexeme.closing? at h
  split at h
  · decide
  · decide
  · decide
  · cases h

/-- What stands between brackets, each of them behind blanks. -/
theorem ofBrackets (hblank : Skipped blank) {delimiter : Delimiter}
    {opening closing : Char} (hopening : Lexeme.opened? opening cs = some delimiter)
    (hclosing : Lexeme.closing? closing = some delimiter) {gap : List Char}
    (hgap : Skipped gap) (hinside : Cuts cs (gap ++ closing :: rest) trees) :
    Cuts (blank ++ opening :: cs) rest [.group delimiter .first .first trees] := by
  obtain ⟨hspace, hslash⟩ := of_opened? hopening
  obtain ⟨hspace', hslash', hnone⟩ := of_closing? hclosing
  refine group ((hblank _).trans (skipSpace_stop hspace hslash cs)) (by simp) ?_ ?_
    hinside ((hgap _).trans (skipSpace_stop hspace' hslash' rest)) (by simp) ?_ ?_
  · simp only [List.length_append, List.length_cons]
    omega
  · intro pos
    simp only [Lexeme.next?, Lexeme.docComment_eq_none hslash, hopening]
  · simp only [List.length_append, List.length_cons]
    omega
  · intro pos
    simp only [Lexeme.next?, Lexeme.docComment_eq_none hslash', Lexeme.opened?, hnone, ite_self,
      hclosing]

/-- A line that documents what follows it. -/
theorem ofDocLine (hblank : Skipped blank) {line : List Char} (hline : '\n' ∉ line)
    (hreturn : '\r' ∉ line) (hslash : line.head? ≠ some '/') (rest : List Char) :
    Cuts (blank ++ '/' :: '/' :: '/' :: (line ++ '\n' :: rest)) ('\n' :: rest)
      (unplacedAll (ofDoc .first .first false (String.ofList line))) := by
  let ahead := '/' :: '/' :: '/' :: (line ++ '\n' :: rest)
  obtain ⟨hend, htext, hpaired⟩ := line_append hline hreturn rest
  have hthree : startsWith "///" ahead = true := rfl
  have hinner : startsWith "//!" ahead = false := rfl
  have hblock : startsWith "/*!" ahead = false := rfl
  have hfour : startsWith "////" ahead = false := by
    cases line with
    | nil => rfl
    | cons c line =>
        have hc : '/' ≠ c := Ne.symm (by simpa using hslash)
        simp [ahead, startsWith, afterText, hc]
  have hdoc : docComment ahead = some ⟨false, line, '\n' :: rest⟩ := by
    simp only [docComment, hthree, hinner, hblock, hfour]
    simp [ahead, hend, htext, hpaired]
  have hskip : skipSpace ahead = ahead := by
    have hplain : plainComment ahead = none := by
      have hempty : startsWith "/**/" ahead = false := rfl
      have hstar : startsWith "/*" ahead = false := rfl
      simp [plainComment, hthree, hfour, hempty, hstar]
    exact skipSpace_of_none (hplain : spaceStep ahead = none)
  have hlt : ('\n' :: rest).length < (blank ++ ahead).length := by
    simp only [ahead, List.length_append, List.length_cons]
    omega
  have hnext (pos : Position) : Lexeme.next? pos ahead = some (.doc pos
      (pos.advance ((before ahead ('\n' :: rest)).dropLast)) false (String.ofList line),
      '\n' :: rest) := by
    simp only [Lexeme.next?, hdoc]
  exact doc ((hblank _).trans hskip) (by simp [ahead]) hlt hnext

end

end Cuts

end TokenTree

end MarkerIndex
