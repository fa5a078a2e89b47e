import Mathlib.Data.List.TakeWhile

/-!
# Formats

A `Format` writes values as texts and reads them back from the front of a text.  A reader may
accept more than its printer writes, such as blanks between tokens, but what the printer writes is
read back as the value that was written, whatever follows.

* `Format.keyed`, `Format.list` : pairs, and lists between brackets.
* `Format.loads_print_append` : a text as a whole is read back.
* `Format.forall_mem_print_keyed`, `Format.forall_mem_print_list` : which characters are written.
-/

namespace Dmlf

/-- The blanks that may stand between tokens. -/
def isBlank (c : Char) : Bool := c ∈ [' ', '\t', '\n', '\r']

/-- What follows blanks. -/
def skipBlanks (s : List Char) : List Char := s.dropWhile isBlank

theorem skipBlanks_cons {c : Char} (h : isBlank c = false) (s : List Char) :
    skipBlanks (c :: s) = c :: s :=
  List.dropWhile_cons_of_neg (by simp [h])

theorem skipBlanks_space_cons {c : Char} (h : isBlank c = false) (s : List Char) :
    skipBlanks (' ' :: c :: s) = c :: s :=
  (List.dropWhile_cons_of_pos rfl).trans (skipBlanks_cons h s)

/-- Values that are written as texts, all with the same first character, and can be read back. -/
structure Format (α : Type*) where
  first : Char
  print : α → List Char
  /-- The value at the front of a text, and the rest of the text. -/
  read : List Char → Option (α × List Char)
  isBlank_first : isBlank first = false
  head_print : ∀ a, (print a).head? = some first
  read_print : ∀ a rest, read (print a ++ rest) = some (a, rest)

namespace Format

variable {α β : Type*} (f : Format α) (g : Format β)

theorem exists_print_eq (a : α) : ∃ s, f.print a = f.first :: s := by
  cases h : f.print a with
  | nil => simpa [h] using f.head_print a
  | cons c s =>
    have hc : c = f.first := by simpa [h] using f.head_print a
    exact ⟨s, by rw [hc]⟩

theorem skipBlanks_print (a : α) (rest : List Char) :
    skipBlanks (f.print a ++ rest) = f.print a ++ rest := by
  obtain ⟨s, hs⟩ := f.exists_print_eq a
  rw [hs, List.cons_append, skipBlanks_cons f.isBlank_first]

theorem skipBlanks_space_print (a : α) (rest : List Char) :
    skipBlanks (' ' :: (f.print a ++ rest)) = f.print a ++ rest := by
  obtain ⟨s, hs⟩ := f.exists_print_eq a
  rw [hs, List.cons_append, skipBlanks_space_cons f.isBlank_first]

/-! ### Tokens -/

/-- The rest of a text after blanks and the character `c`. -/
def readToken (c : Char) (s : List Char) : Option (List Char) :=
  match skipBlanks s with
  | [] => none
  | c' :: s => if c' = c then some s else none

theorem readToken_cons {c : Char} (h : isBlank c = false) (s : List Char) :
    readToken c (c :: s) = some s := by
  rw [readToken, skipBlanks_cons h]
  exact if_pos rfl

/-! ### Pairs -/

/-- Two values with a separator and a space between them. -/
def keyed (separator : Char) (hsep : isBlank separator = false) : Format (α × β) where
  first := f.first
  print x := f.print x.1 ++ separator :: ' ' :: g.print x.2
  read s :=
    (f.read s).bind fun (a, s) =>
      (readToken separator s).bind fun s => (g.read (skipBlanks s)).map fun (b, s) => ((a, b), s)
  isBlank_first := f.isBlank_first
  head_print x := by
    obtain ⟨s, hs⟩ := f.exists_print_eq x.1
    rw [hs]
    rfl
  read_print x rest := by
    obtain ⟨a, b⟩ := x
    simp only [List.append_assoc, List.cons_append, f.read_print, Option.bind_some,
      readToken_cons hsep, g.skipBlanks_space_print, g.read_print, Option.map_some]

variable {f g} {p : Char → Prop}

theorem forall_mem_print_keyed {separator : Char} {hsep : isBlank separator = false}
    (hseparator : p separator) (hspace : p ' ') (hf : ∀ a, ∀ c ∈ f.print a, p c)
    (hg : ∀ b, ∀ c ∈ g.print b, p c) (x : α × β) :
    ∀ c ∈ (f.keyed g separator hsep).print x, p c := by
  intro c hc
  rcases List.mem_append.1 hc with hc | hc
  · exact hf x.1 c hc
  · rcases List.mem_cons.1 hc with rfl | hc
    · exact hseparator
    rcases List.mem_cons.1 hc with rfl | hc
    · exact hspace
    · exact hg x.2 c hc

variable (f)

/-! ### Lists -/

/-- Further values, each after a separator and a space. -/
def printRest (separator : Char) (as : List α) : List Char :=
  as.flatMap fun a => separator :: ' ' :: f.print a

/-- Read a value, and further ones as long as a separator follows; `n` is a bound on their
number. -/
def readItems (separator closing : Char) : ℕ → List Char → Option (List α × List Char)
  | 0, _ => none
  | n + 1, s =>
    (f.read s).bind fun (a, s) =>
      match skipBlanks s with
      | [] => none
      | c :: s =>
        if c = closing then some ([a], s)
        else if c = separator then
          (readItems separator closing n (skipBlanks s)).map fun (as, s) => (a :: as, s)
        else none

theorem readItems_print {separator closing : Char} (hsep : isBlank separator = false)
    (hclosing : isBlank closing = false) (hne : separator ≠ closing) {n : ℕ} (a : α) (as : List α)
    (hn : as.length < n) (rest : List Char) :
    f.readItems separator closing n (f.print a ++ (f.printRest separator as ++ closing :: rest)) =
      some (a :: as, rest) := by
  induction n generalizing a as with
  | zero => exact absurd hn (Nat.not_lt_zero _)
  | succ n ih =>
    rw [readItems, f.read_print]
    cases as with
    | nil => simp [printRest, skipBlanks_cons hclosing]
    | cons b bs =>
      have hrest := ih b bs (Nat.lt_of_succ_lt_succ hn)
      simp only [printRest, List.flatMap_cons, List.cons_append, List.append_assoc,
        Option.bind_some, skipBlanks_cons hsep, if_neg hne, if_true,
        f.skipBlanks_space_print] at hrest ⊢
      rw [hrest]
      rfl

theorem length_le_printRest (separator : Char) (as : List α) :
    as.length ≤ (f.printRest separator as).length := by
  induction as with
  | nil => exact Nat.le_refl _
  | cons a as ih =>
    simp only [printRest, List.flatMap_cons, List.length_cons, List.length_append] at ih ⊢
    omega

/-- Values between brackets, with a separator and a space between any two. -/
def list (opening separator closing : Char) (hopening : isBlank opening = false)
    (hsep : isBlank separator = false) (hclosing : isBlank closing = false)
    (hne : separator ≠ closing) (hfirst : f.first ≠ closing) : Format (List α) where
  first := opening
  print
    | [] => [opening, closing]
    | a :: as => opening :: (f.print a ++ (f.printRest separator as ++ [closing]))
  read s :=
    match s with
    | [] => none
    | c :: s =>
      if c = opening then
        match readToken closing s with
        | some s => some ([], s)
        | none => f.readItems separator closing s.length (skipBlanks s)
      else none
  isBlank_first := hopening
  head_print as := by cases as <;> rfl
  read_print as rest := by
    cases as with
    | nil => simp [readToken_cons hclosing]
    | cons a as =>
      obtain ⟨s, hs⟩ := f.exists_print_eq a
      have hskip := f.skipBlanks_print a (f.printRest separator as ++ closing :: rest)
      -- the first value is not taken for the closing bracket
      have htoken : readToken closing
          (f.print a ++ (f.printRest separator as ++ closing :: rest)) = none := by
        rw [readToken, hskip, hs]
        exact if_neg hfirst
      have hlen := f.length_le_printRest separator as
      have hitems := f.readItems_print hsep hclosing hne a as
        (n := (f.print a ++ (f.printRest separator as ++ closing :: rest)).length)
        (by simp only [List.length_append, List.length_cons]; omega) rest
      simp only [List.cons_append, List.append_assoc, List.nil_append, if_true, htoken, hskip,
        hitems]

variable {f} in
theorem forall_mem_print_list {opening separator closing : Char} {hopening hsep hclosing hne hfirst}
    (hbrackets : p opening ∧ p closing) (hseparator : p separator) (hspace : p ' ')
    (hf : ∀ a, ∀ c ∈ f.print a, p c) (as : List α) :
    ∀ c ∈ (f.list opening separator closing hopening hsep hclosing hne hfirst).print as, p c := by
  have hrest : ∀ as, ∀ c ∈ f.printRest separator as, p c := by
    intro as c hc
    obtain ⟨a, -, hc⟩ := List.mem_flatMap.1 hc
    rcases List.mem_cons.1 hc with rfl | hc
    · exact hseparator
    rcases List.mem_cons.1 hc with rfl | hc
    · exact hspace
    · exact hf a c hc
  cases as with
  | nil => simpa [list] using hbrackets
  | cons a as =>
    intro c hc
    rcases List.mem_cons.1 hc with rfl | hc
    · exact hbrackets.1
    rcases List.mem_append.1 hc with hc | hc
    · exact hf a c hc
    rcases List.mem_append.1 hc with hc | hc
    · exact hrest as c hc
    · exact List.mem_singleton.1 hc ▸ hbrackets.2

/-! ### Whole texts -/

/-- The value of a whole text, with blanks around it. -/
def loads (s : List Char) : Option α :=
  (f.read (skipBlanks s)).bind fun (a, s) => if skipBlanks s = [] then some a else none

/-- **What is written is read back**, also with blanks behind it. -/
theorem loads_print_append (a : α) {blanks : List Char} (h : ∀ c ∈ blanks, isBlank c = true) :
    f.loads (f.print a ++ blanks) = some a := by
  have hblanks : skipBlanks blanks = [] := List.dropWhile_eq_nil_iff.2 h
  rw [loads, f.skipBlanks_print, f.read_print]
  exact if_pos hblanks

end Format

end Dmlf
