import MarkerIndex.Proofs.TextTokens
/-!
Where blanks and comments end. What is skipped in front of a token would be skipped in front of
anything else: a comment up to the end of its line takes its line break along, and one in marks ends
with them. A blank at the end of a text decides nothing, whether it ends a comment or stands behind
it.
-/

namespace MarkerIndex

namespace Scan

open Text

variable {c : Char} {cs rest more gap : List Char} {text : String}

theorem startsWith_append_of_length (h : text.toList.length ≤ cs.length) (more : List Char) :
    startsWith text (cs ++ more) = startsWith text cs := by
  unfold startsWith
  generalize text.toList = ps at h
  induction ps generalizing cs with
  | nil => rfl
  | cons p ps ih =>
      cases cs with
      | nil => cases h
      | cons d cs =>
          simp only [List.cons_append, afterText]
          split
          · exact ih (Nat.le_of_succ_le_succ h)
          · rfl

theorem startsWith_append_of_not_mem (h : c ∉ text.toList) (cs more : List Char) :
    startsWith text (cs ++ c :: more) = startsWith text cs := by
  unfold startsWith
  generalize text.toList = ps at h
  induction ps generalizing cs with
  | nil => rfl
  | cons p ps ih =>
      obtain ⟨hc, hps⟩ := List.ne_and_not_mem_of_not_mem_cons h
      cases cs with
      | nil => simp [afterText, Ne.symm hc]
      | cons d cs =>
          simp only [List.cons_append, afterText]
          split
          · exact ih cs hps
          · rfl

/-- A line ends with the text, or at a line break whatever follows that. -/
theorem lineEnd_cases (cs : List Char) : lineEnd cs = [] ∨ ∃ line rest, cs = line ++ '\n' :: rest ∧
    ∀ more, lineEnd (line ++ '\n' :: more) = '\n' :: more := by
  fun_induction lineEnd cs with
  | case1 => exact .inl rfl
  | case2 rest => exact .inr ⟨[], rest, rfl, fun _ => rfl⟩
  | case3 rest => exact .inr ⟨['\r'], rest, rfl, fun _ => rfl⟩
  | case4 d rest hbreak hreturn ih =>
      refine ih.imp_right ?_
      rintro ⟨line, after, rfl, hend⟩
      refine ⟨d :: line, after, rfl, fun more => ?_⟩
      rw [List.cons_append, lineEnd, hend]
      · exact hbreak
      · rintro more' rfl heq
        cases line with
        | nil => exact hreturn _ rfl rfl
        | cons e line => exact hreturn _ rfl (by rw [(List.cons.inj heq).1]; rfl)

/-- A character behind a line is no part of it, or the line ends with the text all the same. -/
theorem lineEnd_concat (c : Char) (cs : List Char) : lineEnd (cs ++ [c]) = lineEnd cs ++ [c] ∨
    lineEnd (cs ++ [c]) = [] ∧ lineEnd cs = [] := by
  fun_induction lineEnd cs with
  | case1 =>
      by_cases hc : c = '\n'
      · subst hc
        exact .inl rfl
      · exact .inr ⟨by simp [lineEnd], rfl⟩
  | case2 rest => exact .inl rfl
  | case3 rest => exact .inl rfl
  | case4 d rest hbreak hreturn ih =>
      by_cases hpair : d = '\r' ∧ rest = [] ∧ c = '\n'
      · obtain ⟨rfl, rfl, rfl⟩ := hpair
        exact .inl rfl
      · have hstep : lineEnd (d :: rest ++ [c]) = lineEnd (rest ++ [c]) := by
          rw [List.cons_append, lineEnd]
          · exact hbreak
          · intro more hd heq
            cases rest with
            | nil => exact hpair ⟨hd, rfl, (List.cons.inj heq).1⟩
            | cons e rest => exact hreturn rest hd (by rw [(List.cons.inj heq).1])
        rwa [hstep]

theorem exists_lineEnd (cs : List Char) : ∃ line, cs = line ++ lineEnd cs := by
  fun_induction lineEnd cs with
  | case1 => exact ⟨[], rfl⟩
  | case2 rest => exact ⟨[], rfl⟩
  | case3 rest => exact ⟨['\r'], rfl⟩
  | case4 d rest hbreak hreturn ih =>
      obtain ⟨line, hline⟩ := ih
      exact ⟨d :: line, congrArg (d :: ·) hline⟩

/-- A comment in marks ends where it ends, whatever follows it. -/
theorem blockEnd_eq_some {depth : Nat} (h : blockEnd depth cs = some rest) :
    ∃ body, cs = body ++ rest ∧
    2 ≤ body.length ∧ ∀ more, blockEnd depth (body ++ more) = some more := by
  fun_induction blockEnd depth cs with
  | case1 depth after ih =>
      obtain ⟨body, rfl, hlength, hend⟩ := ih h
      exact ⟨'/' :: '*' :: body, rfl, by simp, hend⟩
  | case2 after =>
      obtain rfl := Option.some.inj h
      exact ⟨['*', '/'], rfl, Nat.le_refl 2, fun _ => rfl⟩
  | case3 depth after hdepth ih =>
      obtain ⟨body, rfl, hlength, hend⟩ := ih h
      refine ⟨'*' :: '/' :: body, rfl, by simp, fun more => ?_⟩
      rw [List.cons_append, List.cons_append, blockEnd, if_neg hdepth, hend]
  | case4 depth d after hopen hclose ih =>
      obtain ⟨body, rfl, hlength, hend⟩ := ih h
      obtain ⟨e, body, rfl⟩ :=
        List.exists_cons_of_length_pos (Nat.lt_of_lt_of_le Nat.zero_lt_two hlength)
      refine ⟨d :: e :: body, rfl, by simp, fun more => ?_⟩
      rw [List.cons_append, blockEnd, hend]
      · exact fun more' hd heq => hopen _ hd (by rw [List.cons_append, (List.cons.inj heq).1])
      · exact fun more' hd heq => hclose _ hd (by rw [List.cons_append, (List.cons.inj heq).1])
  | case5 => cases h

/-- What is neither a slash nor a star is no part of a mark. -/
theorem blockEnd_concat (hslash : c ≠ '/') (hstar : c ≠ '*') (depth : Nat) (cs : List Char) :
    blockEnd depth (cs ++ [c]) = (blockEnd depth cs).map (· ++ [c]) := by
  fun_induction blockEnd depth cs with
  | case1 depth after ih => exact ih
  | case2 after => rfl
  | case3 depth after hdepth ih =>
      rw [List.cons_append, List.cons_append, blockEnd, if_neg hdepth, ih]
  | case4 depth d after hopen hclose ih =>
      rw [List.cons_append, blockEnd, ih]
      · intro more hd heq
        cases after with
        | nil => exact hstar (List.cons.inj heq).1
        | cons e after => exact hopen after hd (by rw [(List.cons.inj heq).1])
      · intro more hd heq
        cases after with
        | nil => exact hslash (List.cons.inj heq).1
        | cons e after => exact hclose after hd (by rw [(List.cons.inj heq).1])
  | case5 => simp [blockEnd]

/-- The comments that document nothing: up to the end of a line, the empty one, and one in marks. -/
inductive CommentKind
  | line
  | empty
  | block
  deriving DecidableEq

def commentAt (cs : List Char) : Option CommentKind :=
  if startsWith "//" cs && (!startsWith "///" cs || startsWith "////" cs) &&
      !startsWith "//!" cs then some .line
  else if startsWith "/**/" cs then some .empty
  else if startsWith "/*" cs && (!startsWith "/**" cs || startsWith "/***" cs) &&
      !startsWith "/*!" cs then some .block
  else none

/-- What is left behind the comment, by its kind. -/
def CommentKind.behind (cs : List Char) : CommentKind → Option (List Char)
  | line => some (lineEnd cs)
  | empty => some (cs.drop 4)
  | block => blockEnd 0 (cs.drop 2)

theorem plainComment_eq_bind (cs : List Char) :
    plainComment cs = (commentAt cs).bind (CommentKind.behind cs) := by
  unfold plainComment commentAt
  split
  · rfl
  · split
    · rfl
    · split <;> rfl

/-- The beginnings that tell comments apart. -/
def commentMarks : List String :=
  ["//", "///", "////", "//!", "/**/", "/*", "/**", "/***", "/*!"]

theorem commentAt_congr {ds : List Char}
    (h : ∀ mark ∈ commentMarks, startsWith mark ds = startsWith mark cs) :
    commentAt ds = commentAt cs := by
  simp only [commentMarks, List.forall_mem_cons] at h
  obtain ⟨hline, hdoc, hmore, hinner, hempty, hblock, hdocs, hstars, hinners, -⟩ := h
  rw [commentAt, commentAt, hline, hdoc, hmore, hinner, hempty, hblock, hdocs, hstars, hinners]

theorem commentAt_append (h : 4 ≤ cs.length) (more : List Char) :
    commentAt (cs ++ more) = commentAt cs := by
  have hlength : ∀ mark ∈ commentMarks, mark.toList.length ≤ 4 := by decide
  exact commentAt_congr fun mark member =>
    startsWith_append_of_length (Nat.le_trans (hlength mark member) h) more

/-- No character but the three of the marks decides what comment begins. -/
theorem commentAt_append_cons (h : c ∉ ['/', '*', '!']) (cs more : List Char) :
    commentAt (cs ++ c :: more) = commentAt cs := by
  have hmarks : ∀ mark ∈ commentMarks, mark.toList ⊆ ['/', '*', '!'] := by decide
  exact commentAt_congr fun mark member =>
    startsWith_append_of_not_mem (fun hc => h (hmarks mark member hc)) cs more

theorem startsWith_of_commentAt {kind : CommentKind} (h : commentAt cs = some kind) :
    startsWith "//" cs = true ∨ startsWith "/*" cs = true := by
  unfold commentAt at h
  split at h
  · next hline =>
      simp only [Bool.and_eq_true] at hline
      exact .inl hline.1.1
  · split at h
    · next hempty =>
        obtain ⟨after, rfl⟩ := exists_of_startsWith hempty
        exact .inr rfl
    · split at h
      · next hblock =>
          simp only [Bool.and_eq_true] at hblock
          exact .inr hblock.1.1
      · cases h

/-- A comment begins with a slash and one more character. -/
theorem exists_of_commentAt {kind : CommentKind} (h : commentAt cs = some kind) :
    ∃ d tail, cs = '/' :: d :: tail := by
  rcases startsWith_of_commentAt h with hstart | hstart
  · obtain ⟨tail, rfl⟩ := exists_of_startsWith hstart
    exact ⟨'/', tail, rfl⟩
  · obtain ⟨tail, rfl⟩ := exists_of_startsWith hstart
    exact ⟨'*', tail, rfl⟩

theorem spaceStep_of_commentAt {kind : CommentKind} (h : commentAt cs = some kind) :
    spaceStep cs = kind.behind cs := by
  obtain ⟨d, tail, rfl⟩ := exists_of_commentAt h
  have hplain := plainComment_eq_bind ('/' :: d :: tail)
  rw [h, Option.bind_some] at hplain
  exact hplain

/-- One step goes over a blank or over a comment. -/
theorem spaceStep_cases (cs : List Char) : spaceStep cs = none ∨
    (∃ c rest, cs = c :: rest ∧ isSpace c = true ∧ spaceStep cs = some rest) ∨
    ∃ kind rest, commentAt cs = some kind ∧ kind.behind cs = some rest ∧
    spaceStep cs = some rest := by
  cases hstep : spaceStep cs with
  | none => exact .inl rfl
  | some rest =>
      right
      cases cs with
      | nil => cases hstep
      | cons c cs =>
          have hcs := hstep
          rw [spaceStep] at hcs
          split at hcs
          · next hspace =>
              obtain rfl := Option.some.inj hcs
              exact .inl ⟨c, cs, rfl, hspace, rfl⟩
          · rw [plainComment_eq_bind] at hcs
            obtain ⟨kind, hkind, hbehind⟩ := Option.bind_eq_some_iff.mp hcs
            exact .inr ⟨kind, rest, hkind, hbehind, rfl⟩

theorem of_spaceStep (h : spaceStep cs = some rest) : (∃ c ∈ cs.head?, isSpace c = true) ∨
    startsWith "//" cs = true ∨ startsWith "/*" cs = true := by
  rcases spaceStep_cases cs with hnone | ⟨c, after, rfl, hspace, -⟩ | ⟨kind, after, hkind, -, -⟩
  · rw [hnone] at h
    cases h
  · exact .inl ⟨c, rfl, hspace⟩
  · exact .inr (startsWith_of_commentAt hkind)

theorem CommentKind.exists_behind {kind : CommentKind} (hkind : commentAt cs = some kind)
    (h : kind.behind cs = some rest) : ∃ body, cs = body ++ rest ∧ body ≠ [] := by
  obtain ⟨d, tail, rfl⟩ := exists_of_commentAt hkind
  cases kind with
  | line =>
      obtain ⟨line, hline⟩ := exists_lineEnd (d :: tail)
      obtain rfl : lineEnd (d :: tail) = rest := by simpa [behind, lineEnd] using h
      exact ⟨'/' :: line, congrArg ('/' :: ·) hline, by simp⟩
  | empty =>
      obtain rfl := Option.some.inj h
      exact ⟨_, (List.take_append_drop 4 _).symm, by simp⟩
  | block =>
      obtain ⟨body, hbody, -⟩ := blockEnd_eq_some h
      exact ⟨'/' :: d :: body, congrArg ('/' :: d :: ·) hbody, by simp⟩

/-- Every step goes on. -/
theorem length_lt_of_spaceStep (h : spaceStep cs = some rest) : rest.length < cs.length := by
  rcases spaceStep_cases cs with
      hnone | ⟨c, after, rfl, -, hsome⟩ | ⟨kind, after, hkind, hbehind, hsome⟩
  · rw [hnone] at h
    cases h
  · obtain rfl := Option.some.inj (h.symm.trans hsome)
    exact Nat.lt_succ_self _
  · obtain rfl := Option.some.inj (h.symm.trans hsome)
    obtain ⟨body, rfl, hne⟩ := CommentKind.exists_behind hkind hbehind
    rw [List.length_append]
    exact Nat.lt_add_of_pos_left (List.length_pos_iff.mpr hne)

theorem skipSpace_of_spaceStep (h : spaceStep cs = some rest) : skipSpace cs = skipSpace rest :=
  skipSpace_of_step h (length_lt_of_spaceStep h)

theorem skipSpace_nil : skipSpace [] = [] := skipSpace_of_none rfl

/-- Nothing is left of what is skipped whatever follows it. -/
theorem Skipped.skipSpace_eq_nil (h : Skipped gap) : skipSpace gap = [] := by
  have hend := h []
  rwa [List.append_nil, skipSpace_nil] at hend

theorem Skipped.space (h : isSpace c = true) : Skipped [c] :=
  fun more => skipSpace_space h more

theorem Skipped.of_comment (kind : CommentKind)
    (hkind : ∀ more, commentAt (gap ++ more) = some kind)
    (hbehind : ∀ more, kind.behind (gap ++ more) = some more) : Skipped gap :=
  fun more => skipSpace_of_spaceStep ((spaceStep_of_commentAt (hkind more)).trans (hbehind more))

/-- A comment up to the end of its line takes the line break along. -/
theorem Skipped.of_line {line : List Char} (hkind : commentAt line = some .line)
    (hend : ∀ more, lineEnd (line ++ '\n' :: more) = '\n' :: more) : Skipped (line ++ ['\n']) := by
  intro more
  rw [List.append_assoc, List.singleton_append]
  have hline : commentAt (line ++ '\n' :: more) = some .line := by
    rw [commentAt_append_cons (by decide), hkind]
  rw [skipSpace_of_spaceStep ((spaceStep_of_commentAt hline).trans (congrArg some (hend more))),
    skipSpace_space rfl]

theorem startsWith_of_commentAt_empty (h : commentAt cs = some .empty) :
    startsWith "/**/" cs = true := by
  unfold commentAt at h
  split at h
  · cases h
  · split at h
    · assumption
    · split at h <;> cases h

/-- A text goes on behind something that is skipped in front of any text, or all of it is skipped.
-/
theorem exists_skipped (h : spaceStep cs = some rest) : skipSpace cs = [] ∨
    ∃ gap after, cs = gap ++ after ∧ gap ≠ [] ∧ Skipped gap := by
  rcases spaceStep_cases cs with
      hnone | ⟨c, after, rfl, hspace, -⟩ | ⟨kind, after, hkind, hbehind, hsome⟩
  · rw [hnone] at h
    cases h
  · exact .inr ⟨[c], after, rfl, by simp, .space hspace⟩
  · cases kind with
    | line =>
        obtain rfl := Option.some.inj hbehind
        rcases lineEnd_cases cs with hend | ⟨line, behind, rfl, hend⟩
        · left
          rw [skipSpace_of_spaceStep hsome, hend, skipSpace_nil]
        · right
          rw [commentAt_append_cons (by decide)] at hkind
          exact ⟨line ++ ['\n'], behind, by simp, by simp, .of_line hkind hend⟩
    | empty =>
        right
        obtain ⟨behind, rfl⟩ := exists_of_startsWith (startsWith_of_commentAt_empty hkind)
        refine ⟨_, behind, rfl, by simp, .of_comment .empty (fun more => ?_) fun more => rfl⟩
        have hfour : 4 ≤ "/**/".toList.length := by decide
        rw [commentAt_append hfour] at hkind ⊢
        exact hkind
    | block =>
        right
        obtain ⟨d, tail, rfl⟩ := exists_of_commentAt hkind
        obtain ⟨body, hbody, hlength, hend⟩ := blockEnd_eq_some hbehind
        have hcs : '/' :: d :: tail = ('/' :: d :: body) ++ after := congrArg ('/' :: d :: ·) hbody
        refine ⟨_, after, hcs, by simp, .of_comment .block (fun more => ?_) hend⟩
        have hfour : 4 ≤ ('/' :: d :: body).length := Nat.add_le_add_right hlength 2
        rw [hcs, commentAt_append hfour] at hkind
        rw [commentAt_append hfour, hkind]

/-- What is skipped in front of something is skipped in front of anything. -/
theorem exists_gap (h : skipSpace cs ≠ []) : ∃ gap, cs = gap ++ skipSpace cs ∧ Skipped gap := by
  induction hn : cs.length using Nat.strongRecOn generalizing cs with
  | _ n ih =>
      subst hn
      cases hstep : spaceStep cs with
      | none => exact ⟨[], (skipSpace_of_none hstep).symm, fun _ => rfl⟩
      | some rest =>
          rcases exists_skipped hstep with hnil | ⟨gap, after, rfl, hne, hgap⟩
          · exact absurd hnil h
          · rw [hgap after] at h ⊢
            have hlt : after.length < (gap ++ after).length := by
              rw [List.length_append]
              exact Nat.lt_add_of_pos_left (List.length_pos_iff.mpr hne)
            obtain ⟨more, hmore, hskipped⟩ := ih _ hlt h rfl
            exact ⟨gap ++ more, by rw [List.append_assoc, ← hmore], hgap.append hskipped⟩

/-- A blank behind a comment is left behind it, or the comment takes it along to the end of the
text. -/
theorem CommentKind.behind_concat {kind : CommentKind} (hkind : commentAt cs = some kind)
    (hslash : c ≠ '/') (hstar : c ≠ '*') :
    kind.behind (cs ++ [c]) = (kind.behind cs).map (· ++ [c]) ∨
      kind.behind (cs ++ [c]) = some [] ∧ kind.behind cs = some [] := by
  obtain ⟨d, tail, rfl⟩ := exists_of_commentAt hkind
  cases kind with
  | line =>
      rcases lineEnd_concat c ('/' :: d :: tail) with hend | ⟨hend, hend'⟩
      · exact .inl (congrArg some hend)
      · exact .inr ⟨congrArg some hend, congrArg some hend'⟩
  | empty =>
      obtain ⟨after, hafter⟩ := exists_of_startsWith (startsWith_of_commentAt_empty hkind)
      rw [hafter]
      exact .inl rfl
  | block => exact .inl (blockEnd_concat hslash hstar 0 tail)

/-- So no step is taken because of a blank behind what lies ahead. -/
theorem spaceStep_concat (hmark : c ∉ ['/', '*', '!']) (d : Char) (cs : List Char) :
    spaceStep (d :: cs ++ [c]) = (spaceStep (d :: cs)).map (· ++ [c]) ∨
      spaceStep (d :: cs ++ [c]) = some [] ∧ spaceStep (d :: cs) = some [] := by
  have hkind : commentAt (d :: cs ++ [c]) = commentAt (d :: cs) := commentAt_append_cons hmark _ _
  simp only [List.cons_append, spaceStep] at hkind ⊢
  split
  · exact .inl rfl
  · rw [plainComment_eq_bind, plainComment_eq_bind, hkind]
    cases hcomment : commentAt (d :: cs) with
    | none => exact .inl rfl
    | some kind =>
        exact CommentKind.behind_concat hcomment (fun hc => hmark (by simp [hc]))
          fun hc => hmark (by simp [hc])

/-- A blank at the end of a text is skipped just when all before it is. -/
theorem skipSpace_concat_eq_nil_iff (h : isSpace c = true) (cs : List Char) :
    skipSpace (cs ++ [c]) = [] ↔ skipSpace cs = [] := by
  have hmark : c ∉ ['/', '*', '!'] := of_isSpace (P := (· ∉ ['/', '*', '!'])) (by decide) h
  induction hn : cs.length using Nat.strongRecOn generalizing cs with
  | _ n ih =>
      subst hn
      cases cs with
      | nil => simp [skipSpace_space h]
      | cons d cs =>
          rcases spaceStep_concat hmark d cs with hmore | ⟨hmore, hall⟩
          · cases hstep : spaceStep (d :: cs) with
            | none =>
                rw [hstep, Option.map_none] at hmore
                rw [skipSpace_of_none hmore, skipSpace_of_none hstep]
                simp
            | some rest =>
                rw [hstep, Option.map_some] at hmore
                rw [skipSpace_of_spaceStep hmore, skipSpace_of_spaceStep hstep]
                exact ih _ (length_lt_of_spaceStep hstep) rest rfl
          · rw [skipSpace_of_spaceStep hmore, skipSpace_of_spaceStep hall]

/-- A blank neither goes on with a word nor begins a mark. -/
theorem of_isSpace_ahead (h : isSpace c = true) :
    isIdentContinue c = false ∧ isPunct c = false ∧ c ∉ ['"', '\'', '#'] :=
  of_isSpace (P := fun c => isIdentContinue c = false ∧ isPunct c = false ∧ c ∉ ['"', '\'', '#'])
    (by decide +kernel) h

/-- What is skipped begins with a blank or with one of the marks of comments. -/
theorem head_of_skipSpace (h : skipSpace gap = []) (hne : gap ≠ []) :
    (∃ c tail, gap = c :: tail ∧ isSpace c = true) ∨ ∃ d tail, gap = '/' :: d :: tail ∧
    d ∈ ['/', '*'] := by
  obtain ⟨after, hstep⟩ : ∃ after, spaceStep gap = some after := by
    refine Option.ne_none_iff_exists'.mp fun hnone => hne ?_
    rw [← skipSpace_of_none hnone, h]
  rcases of_spaceStep hstep with ⟨c, hc, hspace⟩ | hstart | hstart
  · obtain ⟨tail, rfl⟩ := List.head?_eq_some_iff.mp hc
    exact .inl ⟨c, tail, rfl, hspace⟩
  · obtain ⟨tail, rfl⟩ := exists_of_startsWith hstart
    exact .inr ⟨'/', tail, rfl, by simp⟩
  · obtain ⟨tail, rfl⟩ := exists_of_startsWith hstart
    exact .inr ⟨'*', tail, rfl, by simp⟩

/-- What is skipped ends a word, and is no mark that could be joined to the one before. -/
theorem parts_of_skipSpace (h : skipSpace gap = []) (hne : gap ≠ []) (rest : List Char) :
    Parts (gap ++ rest) ∧ punctChar (gap ++ rest) = none := by
  have hslash : isIdentContinue '/' = false ∧ '/' ≠ '"' ∧ '/' ≠ '\'' ∧ '/' ≠ '#' := by decide
  rcases head_of_skipSpace h hne with ⟨c, tail, rfl, hspace⟩ | ⟨d, tail, rfl, hd⟩
  · obtain ⟨hcontinue, hpunct, hmark⟩ := of_isSpace_ahead hspace
    have hne : '/' ≠ c := by
      rintro rfl
      cases hspace
    refine ⟨⟨hcontinue, by simpa using hmark⟩, ?_⟩
    simp [punctChar, startsWith, afterText, hne, hpunct]
  · refine ⟨hslash, ?_⟩
    rcases List.mem_pair.mp hd with rfl | rfl <;> rfl

/-- Nothing is skipped in front of a mark. -/
theorem skipSpace_of_punctChar (h : (punctChar cs).isSome = true) : skipSpace cs = cs := by
  refine skipSpace_of_none (Option.eq_none_iff_forall_ne_some.mpr fun rest hstep => ?_)
  rcases of_spaceStep hstep with ⟨c, hc, hspace⟩ | hstart | hstart
  · obtain ⟨tail, rfl⟩ := List.head?_eq_some_iff.mp hc
    obtain ⟨-, hpunct, -⟩ := of_isSpace_ahead hspace
    unfold punctChar at h
    split at h
    · cases h
    · simp [hpunct] at h
  · simp [punctChar, hstart] at h
  · simp [punctChar, hstart] at h

end Scan

namespace Text

variable {c : Char} {cs blanks : List Char}

theorem dropWhile_eq_trimChars_append (cs : List Char) : ∃ after,
    cs.dropWhile isBlank = trimChars cs ++ after ∧ ∀ c ∈ after, isBlank c = true := by
  let kept := cs.dropWhile isBlank
  refine ⟨(kept.reverse.takeWhile isBlank).reverse, ?_,
    fun c hc => List.mem_takeWhile_imp (List.mem_reverse.mp hc)⟩
  rw [trimChars, ← List.reverse_append, List.takeWhile_append_dropWhile, List.reverse_reverse]

theorem exists_trimChars (cs : List Char) : ∃ before after, cs = before ++ (trimChars cs ++ after) ∧
    (∀ c ∈ before, isBlank c = true) ∧ ∀ c ∈ after, isBlank c = true := by
  obtain ⟨after, hkept, hafter⟩ := dropWhile_eq_trimChars_append cs
  refine ⟨cs.takeWhile isBlank, after, ?_, fun c hc => List.mem_takeWhile_imp hc, hafter⟩
  rw [← hkept, List.takeWhile_append_dropWhile]

/-- What is left begins with no blank. -/
theorem isBlank_of_head?_trimChars (h : (trimChars cs).head? = some c) : isBlank c = false := by
  obtain ⟨after, hkept, -⟩ := dropWhile_eq_trimChars_append cs
  have hnot := List.head?_dropWhile_not isBlank cs
  rwa [hkept, List.head?_append, h] at hnot

theorem trimChars_blanks_append (h : ∀ c ∈ blanks, isBlank c = true) (cs : List Char) :
    trimChars (blanks ++ cs) = trimChars cs := by
  rw [trimChars, trimChars, List.dropWhile_append_of_pos h]

theorem trimChars_append_blanks (h : ∀ c ∈ blanks, isBlank c = true) (cs : List Char) :
    trimChars (cs ++ blanks) = trimChars cs := by
  rw [trimChars, trimChars, List.dropWhile_append]
  split
  · next hempty =>
      rw [List.isEmpty_iff.mp hempty, List.dropWhile_eq_nil_iff.mpr h]
  · rw [List.reverse_append, List.dropWhile_append_of_pos fun c hc => h c (List.mem_reverse.mp hc)]

end Text

end MarkerIndex
