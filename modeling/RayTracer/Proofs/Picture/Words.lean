import Mathlib.Data.List.Basic
import Mathlib.Tactic.ByContra
import Mathlib.Tactic.SplitIfs
import RayTracer.Picture.Reader

/-! # Words and numerals

Reading words takes a text apart at any blank: `words_append` says that a blank ends a word and
begins a new one, whatever stands on either side. So a line of numerals that are put together with
blanks is read back as the same numbers (`words_numerals`, `mapM_natural?`).
-/

namespace RayTracer.Pixmap

/-! ## Words -/

theorem wordsAfter_append {blank : Char} (parts : isBlank blank = true) (text rest : List Char)
    (begun : List Char) :
    wordsAfter begun (text ++ blank :: rest) = wordsAfter begun text ++ words rest := by
  induction text generalizing begun with
  | nil =>
    simp only [List.nil_append, wordsAfter, parts, ↓reduceIte]
    split_ifs <;> rfl
  | cons c text ih =>
    rw [List.cons_append, wordsAfter, wordsAfter]
    split_ifs
    · exact ih []
    · rw [ih [], List.cons_append]
    · exact ih (c :: begun)

/-- A blank parts the words before it from those behind it. -/
theorem words_append {blank : Char} (parts : isBlank blank = true) (text rest : List Char) :
    words (text ++ blank :: rest) = words text ++ words rest :=
  wordsAfter_append parts text rest []

theorem words_flatMap {blank : Char} (parts : isBlank blank = true) (lines : List (List Char)) :
    words (lines.flatMap (· ++ [blank])) = lines.flatMap words := by
  induction lines with
  | nil => rfl
  | cons line rest ih =>
    rw [List.flatMap_cons, List.append_assoc, List.singleton_append, words_append parts, ih,
      List.flatMap_cons]

theorem wordsAfter_of_not_blank {word : List Char} (letters : ∀ c ∈ word, isBlank c = false)
    (begun : List Char) (some : begun ++ word ≠ []) :
    wordsAfter begun word = [begun.reverse ++ word] := by
  induction word generalizing begun with
  | nil =>
    have nonempty : begun ≠ [] := by simpa using some
    simp [wordsAfter, nonempty]
  | cons c rest ih =>
    have letter := letters c (List.mem_cons_self ..)
    rw [wordsAfter, if_neg (by simp [letter]),
      ih (fun other mem => letters other (List.mem_cons_of_mem _ mem)) _ (by simp)]
    simp

theorem words_of_not_blank {word : List Char} (letters : ∀ c ∈ word, isBlank c = false)
    (some : word ≠ []) :
    words word = [word] :=
  wordsAfter_of_not_blank letters [] some

/-! ## Numerals -/

/-- The decimal digits of a number. -/
def numeral (n : ℕ) : List Char := Nat.toDigits 10 n

theorem isDigit_of_mem_numeral {n : ℕ} {c : Char} (mem : c ∈ numeral n) : c.isDigit = true :=
  Nat.isDigit_of_mem_toDigits (by decide) (by decide) mem

theorem not_isBlank_of_isDigit {c : Char} (digit : c.isDigit = true) : isBlank c = false := by
  by_contra blank
  simp only [isBlank, Bool.not_eq_false, Bool.or_eq_true, decide_eq_true_eq] at blank
  rcases blank with ((((rfl | rfl) | rfl) | rfl) | rfl) | rfl <;> cases digit

theorem words_numeral (n : ℕ) : words (numeral n) = [numeral n] :=
  words_of_not_blank (fun _ mem => not_isBlank_of_isDigit (isDigit_of_mem_numeral mem))
    Nat.toDigits_ne_nil

theorem natural?_numeral (n : ℕ) : natural? (numeral n) = some n := by
  have digits : (numeral n).all Char.isDigit = true :=
    List.all_eq_true.mpr fun _ => isDigit_of_mem_numeral
  have nonempty : (numeral n).isEmpty = false := List.isEmpty_eq_false_iff.mpr Nat.toDigits_ne_nil
  have value : (numeral n).foldl (fun n c => 10 * n + (c.toNat - '0'.toNat)) 0 = n :=
    Nat.ofDigitChars_eq_foldl.symm.trans Nat.ofDigitChars_ten_toDigits
  rw [natural?, if_pos (by rw [digits, nonempty]; rfl), value]

theorem mapM_natural? (ns : List ℕ) : (ns.map numeral).mapM natural? = some ns := by
  induction ns with
  | nil => rfl
  | cons n rest ih =>
    rw [List.map_cons, List.mapM_cons, natural?_numeral, ih]
    rfl

/-- A line of numerals with blanks between them. -/
def numerals (ns : List ℕ) : List Char := [' '].intercalate (ns.map numeral)

theorem numerals_singleton (n : ℕ) : numerals [n] = numeral n := List.intercalate_singleton

theorem numerals_cons_cons (n next : ℕ) (rest : List ℕ) :
    numerals (n :: next :: rest) = numeral n ++ ' ' :: numerals (next :: rest) :=
  List.intercalate_cons_cons.trans (List.append_assoc ..)

theorem words_numerals (ns : List ℕ) : words (numerals ns) = ns.map numeral := by
  induction ns with
  | nil => rfl
  | cons n rest ih =>
    cases rest with
    | nil => rw [numerals_singleton, words_numeral, List.map_singleton]
    | cons next rest => rw [numerals_cons_cons, words_append (by decide), words_numeral, ih,
        List.map_cons]; rfl

theorem mapM_words_numerals (ns : List ℕ) : (words (numerals ns)).mapM natural? = some ns := by
  rw [words_numerals, mapM_natural?]

theorem isDigit_of_mem_numerals {ns : List ℕ} {c : Char} (mem : c ∈ numerals ns) :
    c.isDigit = true ∨ c = ' ' := by
  induction ns with
  | nil => cases mem
  | cons n rest ih =>
    cases rest with
    | nil =>
      rw [numerals_singleton] at mem
      exact .inl (isDigit_of_mem_numeral mem)
    | cons next rest =>
      rw [numerals_cons_cons, List.mem_append, List.mem_cons] at mem
      obtain digit | blank | later := mem
      · exact .inl (isDigit_of_mem_numeral digit)
      · exact .inr blank
      · exact ih later

theorem newline_not_mem_numerals (ns : List ℕ) : '\n' ∉ numerals ns := by
  intro mem
  obtain digit | blank := isDigit_of_mem_numerals mem
  · cases digit
  · cases blank

end RayTracer.Pixmap
