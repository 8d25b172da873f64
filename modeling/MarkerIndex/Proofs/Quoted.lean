import MarkerIndex.Text.Quoted
import Mathlib.Algebra.Group.Nat.Defs
/-!
Writing a text between quotes and reading it again. Each character is written as an escape that is
read as this character whatever follows, so that reading a quoted text is one induction on it. What
is written holds no line break.
-/

namespace MarkerIndex.Text.Quoted

theorem hexDigit_spec : ∀ n < 16, hexValue? (hexDigit n) = some n ∧ hexDigit n ≠ '_' ∧
    hexDigit n ≠ '\x7d' ∧ hexDigit n ≠ '\n' ∧ hexDigit n ≠ '\r' := by
  decide

/-- One more digit of a code point. -/
theorem read_hexDigit {count value digit : Nat} (hcount : count < 6) (hdigit : digit < 16)
    (rest : List Char) :
    read ordinary (.digits count value) (hexDigit digit :: rest) =
      read ordinary (.digits (count + 1) (value * 16 + digit)) rest := by
  obtain ⟨hvalue, hunderscore, hbrace, _⟩ := hexDigit_spec digit hdigit
  simp [read, hvalue, hunderscore, hbrace, Nat.ne_of_lt hcount]

theorem length_hex_pos (n : Nat) : 0 < (hex n).length := by
  rw [hex]
  split <;> simp

/-- A number below a power of sixteen has no more digits than the exponent. -/
theorem length_hex_le {n k : Nat} (h : n < 16 ^ (k + 1)) : (hex n).length ≤ k + 1 := by
  induction k generalizing n with
  | zero =>
      have hsmall : n < 16 := by simpa using h
      simp [hex, hsmall]
  | succ k ih =>
      rw [hex]
      split
      · simp
      · have hdiv : n / 16 < 16 ^ (k + 1) := by
          rw [Nat.pow_succ] at h
          omega
        have := ih hdiv
        simp only [List.length_append, List.length_singleton]
        omega

/-- All digits of a number in a code point, behind `count` others that made up `value`. The
induction is that of `hex`: the leading digits first, then the last one. -/
theorem read_hex (n count value : Nat) (hcount : count + (hex n).length ≤ 6) (rest : List Char) :
    read ordinary (.digits count value) (hex n ++ rest) =
      read ordinary
        (.digits (count + (hex n).length) (value * 16 ^ (hex n).length + n)) rest := by
  fun_induction hex n generalizing rest with
  | case1 n hsmall =>
      have hone : count < 6 := by
        rw [List.length_singleton] at hcount
        omega
      simpa using read_hexDigit hone hsmall rest
  | case2 n hlarge ih =>
      have hlast : count + (hex (n / 16)).length < 6 := by
        simp only [List.length_append, List.length_singleton] at hcount
        omega
      have hdigits : (value * 16 ^ (hex (n / 16)).length + n / 16) * 16 + n % 16 =
          value * 16 ^ ((hex (n / 16)).length + 1) + n := by
        rw [Nat.pow_succ, Nat.add_mul, Nat.mul_assoc, Nat.add_assoc]
        omega
      rw [List.append_assoc, ih (Nat.le_of_lt hlast), List.singleton_append,
        read_hexDigit hlast (Nat.mod_lt n (by decide)), hdigits]
      simp [Nat.add_assoc]

theorem mem_hex {n : Nat} {c : Char} (h : c ∈ hex n) : ∃ digit < 16, c = hexDigit digit := by
  fun_induction hex n with
  | case1 n hsmall => exact ⟨n, hsmall, by simpa using h⟩
  | case2 n hlarge ih =>
      rcases List.mem_append.mp h with hleading | hlast
      · exact ih hleading
      · exact ⟨n % 16, Nat.mod_lt n (by decide), by simpa using hlast⟩

theorem toNat_lt_pow (c : Char) : c.toNat < 16 ^ 6 := by
  have hvalid := c.valid
  simp only [UInt32.isValidChar, Nat.isValidChar] at hvalid
  simp only [Char.toNat]
  omega

theorem charOf?_toNat (c : Char) : charOf? ordinary c.toNat = some c := by
  have hvalid : c.toNat.isValidChar := c.valid
  simp [charOf?, ordinary, hvalid, Char.ofNat_toNat]

/-- The reader goes on with the value `c` in front. -/
def put (c : Char) (found : Option (List Char × List Char)) : Option (List Char × List Char) :=
  found.map fun (tail, after) => (c :: tail, after)

theorem read_codePoint (c : Char) (rest : List Char) :
    read ordinary .plain (['\\', 'u', '\x7b'] ++ hex c.toNat ++ ['\x7d'] ++ rest) =
      put c (read ordinary .plain rest) := by
  have hlength : (hex c.toNat).length ≤ 6 := length_hex_le (toNat_lt_pow c)
  have hopen : read ordinary .plain (['\\', 'u', '\x7b'] ++ hex c.toNat ++ ['\x7d'] ++ rest) =
      read ordinary (.digits 0 0) (hex c.toNat ++ ('\x7d' :: rest)) := by
    simp [read, ordinary]
  rw [hopen, read_hex c.toNat 0 0 (by omega)]
  simp [read, length_hex_pos, charOf?_toNat, put]

/-- The ways to write a character: a backslash and a letter, the character itself, its number. -/
inductive Writes (c : Char) : List Char → Prop
  | letter (letter : Char) : simpleEscape? ordinary letter = some c →
      letter ∉ ['x', 'u', '\n', '\r'] → Writes c ['\\', letter]
  | itself : c ∉ ['"', '\\', '\n', '\r'] → Writes c [c]
  | number : Writes c (['\\', 'u', '\x7b'] ++ hex c.toNat ++ ['\x7d'])

/-- The characters that are written by a letter behind a backslash, and their letters. -/
def letters : List (Char × Char) :=
  [('\x00', '0'), ('\t', 't'), ('\r', 'r'), ('\n', 'n'), ('\\', '\\'), ('"', '"')]

/-- How one character is written where `shown` says which characters are shown as they are. -/
def escapeShowing (shown : Char → Bool) (c : Char) : List Char :=
  match letters.lookup c with
  | some letter => ['\\', letter]
  | none => if shown c then [c] else ['\\', 'u', '\x7b'] ++ hex c.toNat ++ ['\x7d']

theorem writes_escapeShowing (shown : Char → Bool) (c : Char) :
    Writes c (escapeShowing shown c) := by
  have hletters : ∀ entry ∈ letters, simpleEscape? ordinary entry.2 = some entry.1 ∧
      entry.2 ∉ ['x', 'u', '\n', '\r'] := by decide
  have hplain : ∀ d ∈ ['"', '\\', '\n', '\r'], (letters.lookup d).isSome = true := by
    simp [letters, List.lookup_cons]
  unfold escapeShowing
  cases hletter : letters.lookup c with
  | some letter =>
      obtain ⟨before, after, hsplit, -⟩ := List.lookup_eq_some_iff.mp hletter
      obtain ⟨hvalue, hother⟩ := hletters (c, letter) (by simp [hsplit])
      exact .letter letter hvalue hother
  | none =>
      by_cases hshown : shown c = true
      · rw [if_pos hshown]
        refine .itself fun member => ?_
        have hlisted := hplain c member
        rw [hletter] at hlisted
        cases hlisted
      · rw [if_neg hshown]
        exact .number

/-- What the writer shows as it is are the visible characters. -/
theorem escapeShowing_isVisible : escapeShowing isVisible = escape := by
  funext c
  simp only [escapeShowing, escape, letters, List.lookup_cons, List.lookup_nil]
  grind

theorem writes_escape (c : Char) : Writes c (escape c) :=
  escapeShowing_isVisible ▸ writes_escapeShowing isVisible c

namespace Writes

variable {c : Char} {cs : List Char}

/-- However a character is written, it is read as itself. It does not matter which characters are
visible: what stands for itself is neither a quote nor a backslash nor a line break. -/
theorem read_append (h : Writes c cs) (rest : List Char) :
    read ordinary .plain (cs ++ rest) = put c (read ordinary .plain rest) := by
  cases h with
  | letter _ hvalue hletter =>
      simp only [List.mem_cons, List.not_mem_nil, or_false, not_or] at hletter
      simp [read, hletter, hvalue, put]
  | itself hplain =>
      simp only [List.mem_cons, List.not_mem_nil, or_false, not_or] at hplain
      simp [read, ordinary, hplain, put]
  | number => exact read_codePoint c rest

theorem no_lineBreak (h : Writes c cs) : '\n' ∉ cs ∧ '\r' ∉ cs := by
  cases h with
  | letter _ _ hletter =>
      simp only [List.mem_cons, List.not_mem_nil, or_false, not_or] at hletter
      simp [Ne.symm hletter.2.2.1, Ne.symm hletter.2.2.2]
  | itself hplain =>
      simp only [List.mem_cons, List.not_mem_nil, or_false, not_or] at hplain
      simp [Ne.symm hplain.2.2.1, Ne.symm hplain.2.2.2]
  | number =>
      have hdigits (d : Char) (hd : d = '\n' ∨ d = '\r') : d ∉ hex c.toNat := by
        intro member
        obtain ⟨digit, hdigit, rfl⟩ := mem_hex member
        obtain ⟨_, _, _, hfeed, hreturn⟩ := hexDigit_spec digit hdigit
        rcases hd with h | h
        · exact hfeed h
        · exact hreturn h
      simp [hdigits]

end Writes

/-- Up to the closing quote, the characters are read one after another. -/
theorem read_written {write : Char → List Char} (h : ∀ c, Writes c (write c))
    (cs rest : List Char) :
    read ordinary .plain (cs.flatMap write ++ '"' :: rest) = some (cs, rest) := by
  induction cs with
  | nil => simp [read]
  | cons c cs ih =>
      rw [List.flatMap_cons, List.append_assoc, (h c).read_append, ih]
      rfl

theorem read_escapes (cs rest : List Char) :
    read ordinary .plain (cs.flatMap escape ++ '"' :: rest) = some (cs, rest) :=
  read_written writes_escape cs rest

theorem decodeChars_encodeChars (cs : List Char) : decodeChars (encodeChars cs) = some cs := by
  simp [encodeChars, decodeChars, read_escapes]

theorem encodeChars_no_lineBreak (cs : List Char) :
    '\n' ∉ encodeChars cs ∧ '\r' ∉ encodeChars cs := by
  simp [encodeChars, List.mem_flatMap, (writes_escape _).no_lineBreak]

end MarkerIndex.Text.Quoted
