import MarkerIndex.Proofs.TextTokens
/-!
A quoted text as a literal of its own. Which characters are shown as they are is a matter of tables,
and none of what a reader relies on depends on them: whatever is shown, the text is one literal on
one line, no quote inside it stands by itself, and its value is the text that was quoted.
-/

namespace MarkerIndex.Text.Quoted

/-- What stands between the quotes of a text on one line. A backslash takes the character behind it
along, and by itself stands neither a quote nor a line break. -/
inductive Body : List Char → Prop
  | nil : Body []
  | plain {c : Char} {cs : List Char} : c ∉ ['"', '\\', '\n', '\r'] → Body cs → Body (c :: cs)
  | escaped {c : Char} {cs : List Char} : c ∉ ['\n', '\r'] → Body cs → Body ('\\' :: c :: cs)

namespace Body

variable {cs ds : List Char}

theorem append_plain (h : ∀ c ∈ cs, c ∉ ['"', '\\', '\n', '\r']) (hrest : Body ds) :
    Body (cs ++ ds) := by
  induction cs with
  | nil => exact hrest
  | cons c cs ih =>
      obtain ⟨hc, hcs⟩ := List.forall_mem_cons.mp h
      exact .plain hc (ih hcs)

end Body

/-- Neither a digit nor a brace has a meaning of its own between quotes. -/
theorem plain_of_mem_number {n : Nat} {c : Char} (h : c ∈ '\x7b' :: (hex n ++ ['\x7d'])) :
    c ∉ ['"', '\\', '\n', '\r'] := by
  have hdigits : ∀ digit < 16, hexDigit digit ∉ ['"', '\\', '\n', '\r'] := by decide
  rcases List.mem_cons.mp h with rfl | h
  · decide
  · rcases List.mem_append.mp h with hhex | hbrace
    · obtain ⟨digit, hdigit, rfl⟩ := mem_hex hhex
      exact hdigits digit hdigit
    · rw [List.mem_singleton.mp hbrace]
      decide

theorem Writes.body {c : Char} {cs rest : List Char} (h : Writes c cs) (hrest : Body rest) :
    Body (cs ++ rest) := by
  cases h with
  | letter letter _ hletter => exact .escaped (by simp_all) hrest
  | itself hplain => exact .plain hplain hrest
  | number =>
      have hnumber : Body ('\x7b' :: (hex c.toNat ++ ['\x7d']) ++ rest) :=
        .append_plain (fun _ => plain_of_mem_number) hrest
      have hbody : Body ('\\' :: 'u' :: ('\x7b' :: (hex c.toNat ++ ['\x7d']) ++ rest)) :=
        .escaped (by decide) hnumber
      simpa using hbody

theorem body_written {write : Char → List Char} (h : ∀ c, Writes c (write c)) (cs : List Char) :
    Body (cs.flatMap write) := by
  induction cs with
  | nil => exact .nil
  | cons c cs ih =>
      rw [List.flatMap_cons]
      exact (h c).body ih

/-- The text is one literal on one line, and its value is `s`. -/
structure IsLiteralOf (s text : String) : Prop where
  quoted : ∃ body, text.toList = '"' :: (body ++ ['"']) ∧ Body body
  oneLine : '\n' ∉ text.toList ∧ '\r' ∉ text.toList
  token : ∃ pos, TokenTree.ofText text.toList = .ok [.leaf pos (.literal text)]
  value : decode text = some s

/-- What is read up to a closing quote at the end of a text is the only token of the text. -/
theorem exists_token {body value : List Char}
    (h : read ordinary .plain (body ++ ['"']) = some (value, [])) :
    ∃ pos, TokenTree.ofText ('"' :: (body ++ ['"'])) =
      .ok [.leaf pos (.literal (String.ofList ('"' :: (body ++ ['"']))))] := by
  let text := '"' :: (body ++ ['"'])
  have hstring : Scan.stringLiteral text = some [] := by
    simp [text, Scan.stringLiteral, Scan.quotedEnd, h, Scan.suffixEnd, Scan.wordEnd]
  have hleaf : Lexeme.leaf? text = some (.literal (String.ofList text), []) := by
    simp [Lexeme.leaf?, Scan.literal, hstring, Scan.before]
  have hblank : Scan.Skipped [] := fun _ => rfl
  have hcuts : TokenTree.Cuts text [] [.leaf .first (.literal (String.ofList text))] :=
    .ofLeaf hblank rfl (by decide) rfl rfl hleaf (by simp)
  obtain ⟨found, htokens, hfound⟩ := hcuts.ofText (by simp [text, TokenTree.byteOrderMark])
  obtain ⟨pos, more, rfl, hmore⟩ := TokenTree.unplacedAll_eq_leaf.mp hfound
  obtain rfl := TokenTree.unplacedAll_eq_nil.mp hmore
  exact ⟨pos, htokens⟩

/-- Characters that are each written in one of the ways make up a literal. -/
theorem isLiteralOf_written {write : Char → List Char} (h : ∀ c, Writes c (write c)) (s : String) :
    IsLiteralOf s (String.ofList ('"' :: (s.toList.flatMap write ++ ['"']))) := by
  have hread := read_written h s.toList []
  constructor
  case quoted => exact ⟨_, String.toList_ofList, body_written h s.toList⟩
  case oneLine => simp [List.mem_flatMap, (h _).no_lineBreak]
  case token =>
    rw [String.toList_ofList]
    exact exists_token hread
  case value => simp [decode, decodeChars, hread]

/-- A text as a quoted literal, with `shown` in place of the tables. -/
def encodeShowing (shown : Char → Bool) (s : String) : String :=
  String.ofList ('"' :: (s.toList.flatMap (escapeShowing shown) ++ ['"']))

/-- A text is quoted as one literal of it, whatever characters are taken for visible. -/
theorem encode_isLiteral : (∀ s, encode s = encodeShowing isVisible s) ∧
    ∀ (shown : Char → Bool) (s : String), IsLiteralOf s (encodeShowing shown s) := by
  constructor
  · intro s
    simp only [encode, encodeChars, encodeShowing, escapeShowing_isVisible]
  · exact fun shown s => isLiteralOf_written (writes_escapeShowing shown) s

end MarkerIndex.Text.Quoted
