import MarkerIndex.Json.Reader
import Mathlib.Data.List.Basic
/-!
The one-line form of a JSON value is read back as the value. Each part is written so that it ends by
itself, numbers apart, and no part begins with a blank; so it can be read wherever it stands, as
long as no digit follows.
-/

namespace MarkerIndex.Json

theorem hexValue?_hexDigit {n : Nat} (h : n < 16) : hexValue? (hexDigit n) = some n := by
  have hall : ∀ n < 16, hexValue? (hexDigit n) = some n := by decide
  exact hall n h

/-- A control character is written by its number. -/
theorem unit?_control {c : Char} (h : c.toNat < 0x20) :
    unit? '0' '0' (hexDigit (c.toNat / 16)) (hexDigit (c.toNat % 16)) = some c.toNat := by
  have hzero : hexValue? '0' = some 0 := by decide
  have hhigh : hexValue? (hexDigit (c.toNat / 16)) = some (c.toNat / 16) :=
    hexValue?_hexDigit (by omega)
  have hlow : hexValue? (hexDigit (c.toNat % 16)) = some (c.toNat % 16) :=
    hexValue?_hexDigit (Nat.mod_lt _ (by decide))
  simp only [unit?, hzero, hhigh, hlow, Option.bind_eq_bind, Option.bind_some, pure]
  congr 1
  omega

/-- A character is read back from the way it is written between quotes. -/
theorem readText_escape (c : Char) (rest : List Char) :
    readText (escape c ++ rest) = (readText rest).map fun (tail, after) => (c :: tail, after) := by
  unfold escape
  split_ifs with hquote hslash hback htab hline hfeed hreturn hcontrol
  case pos => subst hquote; simp [readText, simpleEscape?]
  case pos => subst hslash; simp [readText, simpleEscape?]
  case pos => subst hback; simp [readText, simpleEscape?]
  case pos => subst htab; simp [readText, simpleEscape?]
  case pos => subst hline; simp [readText, simpleEscape?]
  case pos => subst hfeed; simp [readText, simpleEscape?]
  case pos => subst hreturn; simp [readText, simpleEscape?]
  case pos =>
    have hvalid : c.toNat.isValidChar := Or.inl (by omega)
    simp [readText, unit?_control hcontrol, hvalid]
  case neg => simp [readText, hslash, hcontrol]

theorem readText_escapes (cs rest : List Char) :
    readText (cs.flatMap escape ++ '"' :: rest) = some (cs, rest) := by
  induction cs with
  | nil => simp [readText]
  | cons c cs ih => rw [List.flatMap_cons, List.append_assoc, readText_escape, ih]; rfl

/-- No digit follows, so that a number ends here. -/
def EndsNumber (rest : List Char) : Prop :=
  ∀ c ∈ rest.head?, c.isDigit = false

theorem digitsValue_toDigits (n : Nat) : digitsValue (Nat.toDigits 10 n) = n :=
  Nat.ofDigitChars_toDigits (by decide) (by decide)

theorem takeWhile_toDigits (n : Nat) {rest : List Char} (h : EndsNumber rest) :
    (Nat.toDigits 10 n ++ rest).takeWhile Char.isDigit = Nat.toDigits 10 n ∧
      (Nat.toDigits 10 n ++ rest).dropWhile Char.isDigit = rest := by
  have hdigits : ∀ c ∈ Nat.toDigits 10 n, c.isDigit = true := fun c member =>
    Nat.isDigit_of_mem_toDigits (by decide) (by decide) member
  rw [List.takeWhile_append_of_pos hdigits, List.dropWhile_append_of_pos hdigits]
  cases rest with
  | nil => simp
  | cons c rest =>
      have hc : c.isDigit = false := h c rfl
      simp [hc]

/-- A number is not written with a zero in front. -/
theorem toDigits_of_zero {n : Nat} {cs : List Char}
    (h : Nat.toDigits 10 n = '0' :: cs) : cs = [] := by
  induction n using Nat.strongRecOn generalizing cs with
  | _ n ih =>
      rw [Nat.toDigits_eq_if (by decide)] at h
      split at h
      · exact (List.cons.inj h).2.symm
      · next hlarge =>
          cases hfront : Nat.toDigits 10 (n / 10) with
          | nil => exact absurd hfront Nat.toDigits_ne_nil
          | cons d ds =>
              rw [hfront, List.cons_append] at h
              obtain ⟨rfl, -⟩ := List.cons.inj h
              obtain rfl := ih (n / 10) (by omega) hfront
              have hvalue := digitsValue_toDigits (n / 10)
              rw [hfront] at hvalue
              have hzero : n / 10 = 0 := hvalue.symm
              omega

/-- The digits of a number are read as the number, behind a sign too. -/
theorem readInteger_toDigits (n : Nat) {rest : List Char} (h : EndsNumber rest) :
    readInteger (Nat.toDigits 10 n ++ rest) = some ((n : Int), rest) ∧
      readInteger ('-' :: (Nat.toDigits 10 n ++ rest)) = some (-(n : Int), rest) := by
  obtain ⟨htake, hdrop⟩ := takeWhile_toDigits n h
  have hunsigned : ∀ cs, Nat.toDigits 10 n ++ rest ≠ '-' :: cs := by
    intro cs hsame
    cases hdigits : Nat.toDigits 10 n with
    | nil => exact Nat.toDigits_ne_nil hdigits
    | cons d ds =>
        have hd : d.isDigit = true :=
          Nat.isDigit_of_mem_toDigits (by decide) (by decide) (hdigits ▸ List.mem_cons_self)
        rw [hdigits] at hsame
        obtain ⟨rfl, -⟩ := List.cons.inj hsame
        exact absurd hd (by decide)
  constructor
  all_goals
    simp only [readInteger, htake, hdrop, digitsValue_toDigits]
    split
    · next hnil => exact absurd hnil Nat.toDigits_ne_nil
    · next hzero => cases toDigits_of_zero hzero
    · rfl

theorem readInteger_toString (value : Int) {rest : List Char} (h : EndsNumber rest) :
    readInteger ((toString value).toList ++ rest) = some (value, rest) := by
  rw [Int.toString_eq_repr, Int.repr_eq_if]
  split
  · next hvalue =>
      rw [Nat.toList_repr, (readInteger_toDigits value.toNat h).1, Int.toNat_of_nonneg hvalue]
  · next hvalue =>
      rw [String.toList_append, Nat.toList_repr]
      have hread := (readInteger_toDigits (-value).toNat h).2
      rw [Int.toNat_of_nonneg (by omega), Int.neg_neg] at hread
      exact hread

theorem exists_cons_toString (value : Int) :
    ∃ c cs, (toString value).toList = c :: cs ∧ (c = '-' ∨ c.isDigit = true) := by
  rw [Int.toString_eq_repr, Int.repr_eq_if]
  split
  · cases hdigits : Nat.toDigits 10 value.toNat with
    | nil => exact absurd hdigits Nat.toDigits_ne_nil
    | cons d ds =>
        refine ⟨d, ds, Nat.toList_repr.trans hdigits, Or.inr ?_⟩
        exact Nat.isDigit_of_mem_toDigits (by decide) (by decide) (hdigits ▸ List.mem_cons_self)
  · exact ⟨'-', _, String.toList_append, Or.inl rfl⟩

/-- What begins like a number is read as one. -/
theorem read_number {c : Char} (hc : c = '-' ∨ c.isDigit = true) (fuel : Nat) (cs : List Char) :
    isBlank c = false ∧ c ≠ ']' ∧
      read (fuel + 1) (c :: cs) =
        (readInteger (c :: cs)).map fun (value, rest) => (.integer value, rest) := by
  have hother : ∀ d, d ≠ '-' → d.isDigit = false → c ≠ d := by
    rintro d hsign hdigit rfl
    rcases hc with rfl | hc
    · exact hsign rfl
    · rw [hdigit] at hc
      cases hc
  have hblank : isBlank c = false := by
    simp [isBlank, hother ' ' (by decide) (by decide), hother '\t' (by decide) (by decide),
      hother '\n' (by decide) (by decide), hother '\r' (by decide) (by decide)]
  refine ⟨hblank, hother ']' (by decide) (by decide), ?_⟩
  have hskip : skipBlanks (c :: cs) = c :: cs := by simp [skipBlanks, hblank]
  have hnull := hother 'n' (by decide) (by decide)
  have htrue := hother 't' (by decide) (by decide)
  have hfalse := hother 'f' (by decide) (by decide)
  have hquote := hother '"' (by decide) (by decide)
  have hbracket := hother '[' (by decide) (by decide)
  have hbrace := hother '\x7b' (by decide) (by decide)
  simp only [read, hskip]
  split <;> simp_all

/-- A value does not begin with a blank or a closing bracket. -/
theorem exists_cons_compact (j : Json) :
    ∃ c cs, j.compact = c :: cs ∧ isBlank c = false ∧ c ≠ ']' := by
  cases j with
  | null => exact ⟨_, _, rfl, by decide, by decide⟩
  | bool value => cases value <;> exact ⟨_, _, rfl, by decide, by decide⟩
  | integer value =>
      obtain ⟨c, cs, hcs, hc⟩ := exists_cons_toString value
      obtain ⟨hblank, hclose, -⟩ := read_number hc 0 cs
      exact ⟨c, cs, hcs, hblank, hclose⟩
  | string text => exact ⟨_, _, rfl, by decide, by decide⟩
  | array items => cases items <;> exact ⟨_, _, rfl, by decide, by decide⟩
  | object fields =>
      rcases fields with _ | ⟨⟨name, value⟩, fields⟩ <;> exact ⟨_, _, rfl, by decide, by decide⟩

theorem skipBlanks_compact (j : Json) (rest : List Char) :
    skipBlanks (j.compact ++ rest) = j.compact ++ rest := by
  obtain ⟨c, cs, hcs, hblank, -⟩ := exists_cons_compact j
  simp [hcs, skipBlanks, hblank]

theorem endsNumber_compactItems (items : List Json) (rest : List Char) :
    EndsNumber (compactItems items ++ rest) := by
  cases items <;> simp [EndsNumber, compactItems]

theorem endsNumber_compactFields (fields : List (String × Json)) (rest : List Char) :
    EndsNumber (compactFields fields ++ rest) := by
  rcases fields with _ | ⟨⟨name, value⟩, fields⟩ <;> simp [EndsNumber, compactFields]

/-- The items of an array are read from behind its bracket. -/
theorem read_array {fuel : Nat} {item : Json} {items : List Json} {middle rest : List Char}
    (hitem : read fuel (item.compact ++ middle) = some (item, middle))
    (hitems : readItems fuel middle = some (items, rest)) :
    read (fuel + 1) ('[' :: (item.compact ++ middle)) = some (.array (item :: items), rest) := by
  have hskip := skipBlanks_compact item middle
  obtain ⟨c, cs, hcs, -, hclose⟩ := exists_cons_compact item
  have hbracket :
      skipBlanks ('[' :: (item.compact ++ middle)) = '[' :: (item.compact ++ middle) := rfl
  simp only [read, hbracket, hskip]
  split
  · next heq =>
      rw [hcs] at heq
      exact absurd (List.cons.inj heq).1 hclose
  · rw [hitem, Option.bind_some, hitems]
    rfl

theorem read_string (fuel : Nat) (text : String) (rest : List Char) :
    read (fuel + 1) (quote text ++ rest) = some (.string text, rest) := by
  have hread :
      readText (text.toList.flatMap escape ++ ['"'] ++ rest) = some (text.toList, rest) := by
    rw [List.append_assoc]
    exact readText_escapes text.toList rest
  have hskip : skipBlanks (quote text ++ rest) =
      '"' :: (text.toList.flatMap escape ++ ['"'] ++ rest) := rfl
  simp only [read, hskip, hread, Option.map_some, String.ofList_toList]

theorem readField_quote {fuel : Nat} (name : String) {value : Json} {middle rest : List Char}
    (hvalue : read fuel middle = some (value, rest)) :
    readField (fuel + 1) (quote name ++ ':' :: middle) = some ((name, value), rest) := by
  have hread : readText (name.toList.flatMap escape ++ ['"'] ++ ':' :: middle) =
      some (name.toList, ':' :: middle) := by
    rw [List.append_assoc]
    exact readText_escapes name.toList (':' :: middle)
  have hskip : skipBlanks (quote name ++ ':' :: middle) =
      '"' :: (name.toList.flatMap escape ++ ['"'] ++ ':' :: middle) := rfl
  have hcolon : skipBlanks (':' :: middle) = ':' :: middle := rfl
  simp only [readField, hskip, hread, Option.bind_some, hcolon, hvalue, Option.map_some,
    String.ofList_toList]

/-- A value takes some fuel. -/
theorem exists_fuel (j : Json) {fuel : Nat} (h : j.compact.length ≤ fuel) : ∃ n, fuel = n + 1 := by
  obtain ⟨c, cs, hcs, -⟩ := exists_cons_compact j
  rw [hcs, List.length_cons] at h
  exact ⟨fuel - 1, by omega⟩

theorem read_integer (fuel : Nat) (value : Int) {rest : List Char} (hrest : EndsNumber rest) :
    read (fuel + 1) ((toString value).toList ++ rest) = some (.integer value, rest) := by
  obtain ⟨c, cs, hcs, hc⟩ := exists_cons_toString value
  have hread := readInteger_toString value hrest
  rw [hcs, List.cons_append] at hread ⊢
  rw [(read_number hc fuel _).2.2, hread]
  rfl

theorem read_object {fuel : Nat} {name : String} {field : String × Json}
    {fields : List (String × Json)} {cs middle rest : List Char}
    (hfield : readField fuel (quote name ++ cs) = some (field, middle))
    (hfields : readFields fuel middle = some (fields, rest)) :
    read (fuel + 1) ('\x7b' :: (quote name ++ cs)) = some (.object (field :: fields), rest) := by
  have hstep : read (fuel + 1) ('\x7b' :: (quote name ++ cs)) =
      (readField fuel (quote name ++ cs)).bind fun first =>
        (readFields fuel first.2).map fun later => (.object (first.1 :: later.1), later.2) := rfl
  simp only [hstep, hfield, Option.bind_some, hfields, Option.map_some]

theorem readFields_cons {fuel : Nat} {field : String × Json} {fields : List (String × Json)}
    {cs middle rest : List Char} (hfield : readField fuel cs = some (field, middle))
    (hfields : readFields fuel middle = some (fields, rest)) :
    readFields (fuel + 1) (',' :: cs) = some (field :: fields, rest) := by
  have hstep : readFields (fuel + 1) (',' :: cs) =
      (readField fuel cs).bind fun first =>
        (readFields fuel first.2).map fun later => (first.1 :: later.1, later.2) := rfl
  simp only [hstep, hfield, Option.bind_some, hfields, Option.map_some]

mutual

theorem read_compact : (j : Json) → ∀ {fuel : Nat} {rest : List Char}, j.compact.length ≤ fuel →
    EndsNumber rest → read fuel (j.compact ++ rest) = some (j, rest)
  | .array (item :: items), fuel, rest, hfuel, _ => by
      obtain ⟨n, rfl⟩ := exists_fuel _ hfuel
      simp only [compact, List.length_cons, List.length_append] at hfuel
      have hitem := @read_compact item n (compactItems items ++ rest) (by omega)
        (endsNumber_compactItems items rest)
      have hitems := @readItems_compact items n rest (by omega)
      rw [compact, List.cons_append, List.append_assoc]
      exact read_array hitem hitems
  | .object ((name, value) :: fields), fuel, rest, hfuel, _ => by
      obtain ⟨n, rfl⟩ := exists_fuel _ hfuel
      simp only [compact, List.length_cons, List.length_append] at hfuel
      obtain ⟨m, rfl⟩ : ∃ m, n = m + 1 := ⟨n - 1, by omega⟩
      have hvalue := @read_compact value m (compactFields fields ++ rest) (by omega)
        (endsNumber_compactFields fields rest)
      have hfields := @readFields_compact fields (m + 1) rest (by omega)
      rw [compact, List.cons_append, List.append_assoc, List.cons_append, List.append_assoc]
      exact read_object (readField_quote name hvalue) hfields
  | .integer value, fuel, rest, hfuel, hrest => by
      obtain ⟨n, rfl⟩ := exists_fuel _ hfuel
      exact read_integer n value hrest
  | .string text, fuel, rest, hfuel, _ => by
      obtain ⟨n, rfl⟩ := exists_fuel _ hfuel
      exact read_string n text rest
  | .null, fuel, rest, hfuel, _ => by
      obtain ⟨n, rfl⟩ := exists_fuel _ hfuel
      rfl
  | .bool value, fuel, rest, hfuel, _ => by
      obtain ⟨n, rfl⟩ := exists_fuel _ hfuel
      cases value <;> rfl
  | .array [], fuel, rest, hfuel, _ => by
      obtain ⟨n, rfl⟩ := exists_fuel _ hfuel
      rfl
  | .object [], fuel, rest, hfuel, _ => by
      obtain ⟨n, rfl⟩ := exists_fuel _ hfuel
      rfl

theorem readItems_compact : (items : List Json) → ∀ {fuel : Nat} {rest : List Char},
    (compactItems items).length ≤ fuel →
      readItems fuel (compactItems items ++ rest) = some (items, rest)
  | [], 0, rest, hfuel => by simp [compactItems] at hfuel
  | [], fuel + 1, rest, hfuel => rfl
  | item :: items, 0, rest, hfuel => by simp [compactItems] at hfuel
  | item :: items, fuel + 1, rest, hfuel => by
      simp only [compactItems, List.length_cons, List.length_append] at hfuel
      have hitem := @read_compact item fuel (compactItems items ++ rest) (by omega)
        (endsNumber_compactItems items rest)
      have hitems := @readItems_compact items fuel rest (by omega)
      have hcomma : skipBlanks (',' :: (item.compact ++ (compactItems items ++ rest))) =
          ',' :: (item.compact ++ (compactItems items ++ rest)) := rfl
      rw [compactItems, List.cons_append, List.append_assoc]
      simp only [readItems, hcomma, hitem, Option.bind_some, hitems, Option.map_some]

theorem readFields_compact : (fields : List (String × Json)) → ∀ {fuel : Nat} {rest : List Char},
    (compactFields fields).length ≤ fuel →
      readFields fuel (compactFields fields ++ rest) = some (fields, rest)
  | [], 0, rest, hfuel => by simp [compactFields] at hfuel
  | [], fuel + 1, rest, hfuel => rfl
  | (name, value) :: fields, 0, rest, hfuel => by simp [compactFields] at hfuel
  | (name, value) :: fields, fuel + 1, rest, hfuel => by
      simp only [compactFields, List.length_cons, List.length_append] at hfuel
      obtain ⟨n, rfl⟩ : ∃ n, fuel = n + 1 := ⟨fuel - 1, by omega⟩
      have hvalue := @read_compact value n (compactFields fields ++ rest) (by omega)
        (endsNumber_compactFields fields rest)
      have hfields := @readFields_compact fields (n + 1) rest (by omega)
      rw [compactFields, List.cons_append, List.append_assoc, List.cons_append, List.append_assoc]
      exact readFields_cons (readField_quote name hvalue) hfields

end

/-- The one-line form of a value is read as the value. -/
theorem ofText?_text (j : Json) : ofText? j.text = some j := by
  have hread := @read_compact j (j.compact.length + 1) [] (Nat.le_succ _) (by simp [EndsNumber])
  rw [List.append_nil] at hread
  have hlength : j.text.length = j.compact.length := by simp [text]
  have hchars : j.text.toList = j.compact := by simp [text]
  rw [ofText?, hlength, hchars, hread]
  rfl

end MarkerIndex.Json
