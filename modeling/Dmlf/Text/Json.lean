import Dmlf.Text.Format
import Mathlib.Tactic.IntervalCases

/-!
# JSON

`json.dumps` writes a text with the characters from the space to the tilde only: every other
character is written as an escape, and one outside the basic plane as two.  `json.loads` takes the
escapes, and blanks between the tokens.

Lists of texts and dicts of texts are all that the sources write.  A lone surrogate, which a
Python text may hold, is no character here: its escape is not read.

* `jsonText`, `jsonTexts`, `jsonDict` : the three formats, with their round trips.
* `isPrintable_jsonDict` : what is written is printable.
-/

namespace Dmlf

/-! ### Hexadecimal digits -/

/-- The digit of a number below 16. -/
def hexDigit (n : ℕ) : Char := "0123456789abcdef".toList.getD n '0'

/-- The number of a digit, in either case. -/
def hexValue (c : Char) : Option ℕ :=
  if '0' ≤ c ∧ c ≤ '9' then some (c.toNat - '0'.toNat)
  else if 'a' ≤ c ∧ c ≤ 'f' then some (c.toNat - 'a'.toNat + 10)
  else if 'A' ≤ c ∧ c ≤ 'F' then some (c.toNat - 'A'.toNat + 10)
  else none

/-- Four digits. -/
def hex4 (n : ℕ) : List Char :=
  [hexDigit (n / 4096 % 16), hexDigit (n / 256 % 16), hexDigit (n / 16 % 16), hexDigit (n % 16)]

/-- The number of the first four digits, and what follows. -/
def readHex4 : List Char → Option (ℕ × List Char)
  | a :: b :: c :: d :: s =>
    (hexValue a).bind fun a => (hexValue b).bind fun b => (hexValue c).bind fun c =>
      (hexValue d).map fun d => (4096 * a + 256 * b + 16 * c + d, s)
  | _ => none

theorem hexValue_hexDigit {n : ℕ} (h : n < 16) : hexValue (hexDigit n) = some n := by
  interval_cases n <;> decide

theorem readHex4_hex4 {n : ℕ} (h : n < 65536) (s : List Char) :
    readHex4 (hex4 n ++ s) = some (n, s) := by
  have hsum : 4096 * (n / 4096 % 16) + 256 * (n / 256 % 16) + 16 * (n / 16 % 16) + n % 16 = n := by
    omega
  simp only [hex4, List.cons_append, List.nil_append, readHex4,
    hexValue_hexDigit (Nat.mod_lt _ (by decide)), Option.bind_some, Option.map_some, hsum]

/-! ### Characters -/

/-- `ESCAPE_DCT`: the characters with a short escape, each with the letter of its escape. -/
def shortEscapes : List (Char × Char) :=
  [('\\', '\\'), ('"', '"'), (Char.ofNat 8, 'b'), (Char.ofNat 12, 'f'), ('\n', 'n'), ('\r', 'r'),
    ('\t', 't')]

/-- The escape with the number of a character in the basic plane, or of a surrogate. -/
def unicodeEscape (n : ℕ) : List Char := '\\' :: 'u' :: hex4 n

/-- What `json.dumps` writes for a character. -/
def escapeChar (c : Char) : List Char :=
  match shortEscapes.lookup c with
  | some e => ['\\', e]
  | none =>
    if 32 ≤ c.toNat ∧ c.toNat ≤ 126 then [c]
    else if c.toNat < 65536 then unicodeEscape c.toNat
    else
      let n := c.toNat - 65536
      unicodeEscape (55296 + n / 1024) ++ unicodeEscape (56320 + n % 1024)

/-- `BACKSLASH`: the character of a short escape, by its letter. -/
def unescape (e : Char) : Option Char :=
  [('"', '"'), ('\\', '\\'), ('/', '/'), ('b', Char.ofNat 8), ('f', Char.ofNat 12), ('n', '\n'),
    ('r', '\r'), ('t', '\t')].lookup e

/-- The character of an escape, after `\u`.  The first half of a pair comes with the other one. -/
def readUnicode (s : List Char) : Option (Char × List Char) :=
  (readHex4 s).bind fun (n, s) =>
    if 55296 ≤ n ∧ n < 56320 then
      match s with
      | '\\' :: 'u' :: s => (readHex4 s).bind fun (k, s) =>
        if 56320 ≤ k ∧ k < 57344 then
          some (Char.ofNat (65536 + (n - 55296) * 1024 + (k - 56320)), s)
        else none
      | _ => none
    else if 56320 ≤ n ∧ n < 57344 then none
    else some (Char.ofNat n, s)

/-- The first character of a text, after which an escape may follow. -/
def readChar : List Char → Option (Char × List Char)
  | [] => none
  | c :: s =>
    if c = '\\' then
      match s with
      | [] => none
      | e :: s => if e = 'u' then readUnicode s else (unescape e).map fun c => (c, s)
    -- a control character has to be escaped
    else if c.toNat < 32 then none
    else some (c, s)

theorem readUnicode_hex4 {c : Char} (h : c.toNat < 65536) (s : List Char) :
    readUnicode (hex4 c.toNat ++ s) = some (c, s) := by
  have hvalid : c.toNat < 55296 ∨ 57344 ≤ c.toNat := by
    rcases c.valid with hlt | ⟨hgt, -⟩
    · exact .inl hlt
    · exact .inr hgt
  rw [readUnicode, readHex4_hex4 h]
  simp only [Option.bind_some]
  rw [if_neg (by omega), if_neg (by omega), Char.ofNat_toNat]

theorem readUnicode_surrogates {n k : ℕ} (hn : 55296 ≤ n ∧ n < 56320) (hk : 56320 ≤ k ∧ k < 57344)
    (s : List Char) : readUnicode (hex4 n ++ (unicodeEscape k ++ s)) =
      some (Char.ofNat (65536 + (n - 55296) * 1024 + (k - 56320)), s) := by
  rw [readUnicode, readHex4_hex4 (by omega)]
  simp only [Option.bind_some, unicodeEscape, List.cons_append]
  rw [if_pos hn, readHex4_hex4 (by omega)]
  simp only [Option.bind_some]
  rw [if_pos hk]

theorem readUnicode_pair {c : Char} (h : 65536 ≤ c.toNat) (s : List Char) :
    readUnicode (hex4 (55296 + (c.toNat - 65536) / 1024) ++
      (unicodeEscape (56320 + (c.toNat - 65536) % 1024) ++ s)) = some (c, s) := by
  have hvalid : c.toNat < 55296 ∨ c.toNat < 1114112 := by
    rcases c.valid with hlt | ⟨-, hlt⟩
    · exact .inl hlt
    · exact .inr hlt
  have hsum : 65536 + (55296 + (c.toNat - 65536) / 1024 - 55296) * 1024 +
      (56320 + (c.toNat - 65536) % 1024 - 56320) = c.toNat := by omega
  rw [readUnicode_surrogates (by omega) (by omega), hsum, Char.ofNat_toNat]

theorem mem_shortEscapes {c e : Char} (h : shortEscapes.lookup c = some e) :
    (c, e) ∈ shortEscapes := by
  obtain ⟨l₁, l₂, hl, -⟩ := List.lookup_eq_some_iff.1 h
  exact hl ▸ List.mem_append_right _ List.mem_cons_self

theorem unescape_of_lookup {c e : Char} (h : shortEscapes.lookup c = some e) :
    e ≠ 'u' ∧ unescape e = some c := by
  have hall : ∀ x ∈ shortEscapes, x.2 ≠ 'u' ∧ unescape x.2 = some x.1 := by decide
  exact hall _ (mem_shortEscapes h)

/-- **A character is read back.** -/
theorem readChar_escapeChar (c : Char) (s : List Char) :
    readChar (escapeChar c ++ s) = some (c, s) := by
  unfold escapeChar
  split
  · rename_i e he
    obtain ⟨hu, hc⟩ := unescape_of_lookup he
    simp [readChar, hu, hc]
  · rename_i hnone
    split_ifs with hplain hbmp
    · -- a backslash has a short escape
      have hne : c ≠ '\\' := by
        rintro rfl
        simp [shortEscapes] at hnone
      have hcontrol : ¬ c.toNat < 32 := by omega
      simp [readChar, hne, hcontrol]
    · exact readUnicode_hex4 hbmp s
    · rw [List.append_assoc]
      exact readUnicode_pair (not_lt.1 hbmp) s

/-- What is written for a character begins with no quotation mark. -/
theorem exists_escapeChar_eq (c : Char) : ∃ c' s, escapeChar c = c' :: s ∧ c' ≠ '"' := by
  unfold escapeChar
  split
  · exact ⟨_, _, rfl, by decide⟩
  · rename_i hnone
    split_ifs with hplain hbmp
    · refine ⟨c, [], rfl, ?_⟩
      rintro rfl
      simp [shortEscapes] at hnone
    · exact ⟨_, _, rfl, by decide⟩
    · exact ⟨_, _, rfl, by decide⟩

/-! ### Texts -/

/-- `scanstring`: the characters up to the closing quotation mark; `n` is a bound on their
number. -/
def scanText : ℕ → List Char → Option (List Char × List Char)
  | 0, _ => none
  | n + 1, s =>
    match s with
    | [] => none
    | c :: rest =>
      if c = '"' then some ([], rest)
      else (readChar s).bind fun (c, s) => (scanText n s).map fun (text, s) => (c :: text, s)

theorem scanText_escape {n : ℕ} {text : List Char} (h : text.length < n) (s : List Char) :
    scanText n (text.flatMap escapeChar ++ '"' :: s) = some (text, s) := by
  induction n generalizing text with
  | zero => exact absurd h (Nat.not_lt_zero _)
  | succ n ih =>
    cases text with
    | nil => rfl
    | cons c text =>
      obtain ⟨c', s', hc, hne⟩ := exists_escapeChar_eq c
      have hread := readChar_escapeChar c (text.flatMap escapeChar ++ '"' :: s)
      rw [hc, List.cons_append] at hread
      rw [List.flatMap_cons, List.append_assoc, hc, List.cons_append, scanText]
      simp only [if_neg hne, hread, Option.bind_some, ih (Nat.lt_of_succ_lt_succ h),
        Option.map_some]

theorem length_le_flatMap_escapeChar (text : List Char) :
    text.length ≤ (text.flatMap escapeChar).length := by
  induction text with
  | nil => exact Nat.le_refl _
  | cons c text ih =>
    obtain ⟨c', s', hc, -⟩ := exists_escapeChar_eq c
    rw [List.flatMap_cons, List.length_append, hc, List.length_cons, List.length_cons]
    omega

/-- A text between quotation marks. -/
def jsonText : Format (List Char) where
  first := '"'
  print text := '"' :: (text.flatMap escapeChar ++ ['"'])
  read s :=
    match s with
    | [] => none
    | c :: s => if c = '"' then scanText s.length s else none
  isBlank_first := by decide
  head_print _ := rfl
  read_print text rest := by
    have hlen := length_le_flatMap_escapeChar text
    simp only [List.cons_append, List.append_assoc, List.nil_append, if_true]
    refine scanText_escape ?_ rest
    simp only [List.length_append, List.length_cons]
    omega

/-- A list of texts. -/
def jsonTexts : Format (List (List Char)) :=
  jsonText.list '[' ',' ']' (by decide) (by decide) (by decide) (by decide) (by decide)

/-- A dict of texts, with its keys in order. -/
def jsonDict : Format (List (List Char × List Char)) :=
  (jsonText.keyed jsonText ':' (by decide)).list '{' ',' '}' (by decide) (by decide) (by decide)
    (by decide) (by decide)

/-! ### Printable characters -/

/-- The characters from the space to the tilde. -/
def isPrintable (c : Char) : Bool := 32 ≤ c.toNat ∧ c.toNat ≤ 126

theorem isPrintable_hexDigit (n : ℕ) : isPrintable (hexDigit n) = true := by
  by_cases h : n < 16
  · interval_cases n <;> decide
  · rw [hexDigit, List.getD_eq_getElem?_getD, List.getElem?_eq_none (by simpa using h)]
    decide

theorem isPrintable_unicodeEscape (n : ℕ) : ∀ c ∈ unicodeEscape n, isPrintable c = true := by
  have hu : isPrintable '\\' = true ∧ isPrintable 'u' = true := by decide
  simp [unicodeEscape, hex4, isPrintable_hexDigit, hu]

theorem isPrintable_escapeChar (c : Char) : ∀ c' ∈ escapeChar c, isPrintable c' = true := by
  unfold escapeChar
  split
  · rename_i e he
    have hall : shortEscapes.all (fun x => ['\\', x.2].all isPrintable) = true := by decide
    exact List.all_eq_true.1 (List.all_eq_true.1 hall _ (mem_shortEscapes he))
  · split_ifs with hplain hbmp
    · simpa [isPrintable] using hplain
    · exact isPrintable_unicodeEscape _
    · intro c' hc'
      rcases List.mem_append.1 hc' with hc' | hc'
      · exact isPrintable_unicodeEscape _ c' hc'
      · exact isPrintable_unicodeEscape _ c' hc'

theorem isPrintable_jsonText (text : List Char) :
    ∀ c ∈ jsonText.print text, isPrintable c = true := by
  intro c hc
  have hquote : isPrintable '"' = true := by decide
  simp only [jsonText, List.mem_cons, List.mem_append, List.mem_flatMap, List.not_mem_nil,
    or_false] at hc
  rcases hc with rfl | ⟨c', -, hc⟩ | rfl
  · exact hquote
  · exact isPrintable_escapeChar c' c hc
  · exact hquote

theorem isPrintable_jsonDict (entries : List (List Char × List Char)) :
    ∀ c ∈ jsonDict.print entries, isPrintable c = true :=
  Format.forall_mem_print_list (by decide) (by decide) (by decide)
    (Format.forall_mem_print_keyed (by decide) (by decide) isPrintable_jsonText
      isPrintable_jsonText) entries

/-! ### Lists of Python's texts -/

/-- `json.dumps(texts)`. -/
def jsonDumps (texts : List String) : String :=
  String.ofList (jsonTexts.print (texts.map String.toList))

end Dmlf
