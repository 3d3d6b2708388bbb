import Mathlib.Data.List.Basic
import Mathlib.Tactic.Common

/-!
# INI files

Lines of text: headers in brackets, comments behind a number sign, entries of a key and
a value, and blank lines.  What is written line by line is read as the same lines, if no part has a
line break in it and the keys are words (`read_write`).
-/

namespace Ini

abbrev Text := List UInt8

inductive Line where
  | blank
  | comment (text : Text)
  | header (name : Text)
  | entry (key value : Text)
  deriving DecidableEq, Repr

def Line.text : Line → Text
  | .blank => []
  | .comment text => 0x23 :: text
  | .header name => 0x5b :: (name ++ [0x5d])
  | .entry key value => key ++ 0x20 :: 0x3d :: 0x20 :: value

/-- The text of lines, each with a line break behind it. -/
def write (lines : List Line) : Text := lines.flatMap fun l => l.text ++ [0x0a]

/-- The lines of a text, after the part of a line that was read before. -/
def linesFrom : Text → Text → List Text
  | part, [] => if part = [] then [] else [part]
  | part, c :: s => if c = 0x0a then part :: linesFrom [] s else linesFrom (part ++ [c]) s

def isSpace (c : UInt8) : Bool := decide (c = 0x20)

/-- A line is what its first character says it is; an entry has its key before the first equals
sign, and spaces around the sign belong to neither part. -/
def readLine : Text → Line
  | [] => .blank
  | 0x23 :: text => .comment text
  | 0x5b :: rest => .header (rest.takeWhile (· ≠ 0x5d))
  | s =>
      .entry ((s.takeWhile (· ≠ 0x3d)).reverse.dropWhile isSpace).reverse
        (((s.dropWhile (· ≠ 0x3d)).drop 1).dropWhile isSpace)

def read (s : Text) : List Line := (linesFrom [] s).map readLine

/-- A letter of ASCII. -/
def isLetter (c : UInt8) : Bool :=
  decide (0x41 ≤ c) && decide (c ≤ 0x5a) || decide (0x61 ≤ c) && decide (c ≤ 0x7a)

/-- No part has a line break in it, keys are words, and a value does not start with a space. -/
def Line.Plain : Line → Prop
  | .blank => True
  | .comment text => 0x0a ∉ text
  | .header name => 0x0a ∉ name ∧ 0x5d ∉ name
  | .entry key value =>
      key ≠ [] ∧ (∀ c ∈ key, isLetter c = true) ∧ 0x0a ∉ value ∧ value.head? ≠ some 0x20

/-! ## Lines -/

theorem isLetter_spec {c : UInt8} (letter : isLetter c = true) :
    c ≠ 0x0a ∧ c ≠ 0x20 ∧ c ≠ 0x23 ∧ c ≠ 0x3d ∧ c ≠ 0x5b := by
  refine ⟨?_, ?_, ?_, ?_, ?_⟩ <;>
  · rintro rfl
    exact absurd letter (by decide)

theorem Line.Plain.notMem_text {l : Line} (plain : l.Plain) : 0x0a ∉ l.text := by
  cases l with
  | blank => exact List.not_mem_nil
  | comment text => simpa [Line.text] using show 0x0a ∉ text from plain
  | header name => simpa [Line.text] using plain.1
  | entry key value =>
      have notKey : 0x0a ∉ key := fun member => (isLetter_spec (plain.2.1 _ member)).1 rfl
      simpa [Line.text, notKey] using plain.2.2.1

theorem linesFrom_append {part t : Text} (unbroken : 0x0a ∉ t) (s : Text) :
    linesFrom part (t ++ 0x0a :: s) = (part ++ t) :: linesFrom [] s := by
  induction t generalizing part with
  | nil => simp [linesFrom]
  | cons c t ih =>
      rw [List.mem_cons, not_or] at unbroken
      rw [List.cons_append, linesFrom, if_neg (Ne.symm unbroken.1), ih unbroken.2,
        List.append_assoc, List.singleton_append]

/-- **The lines of what is written.** -/
theorem linesFrom_write {lines : List Line} (plain : ∀ l ∈ lines, l.Plain) :
    linesFrom [] (write lines) = lines.map Line.text := by
  induction lines with
  | nil => rfl
  | cons l lines ih =>
      have later := ih fun l' member => plain l' (List.mem_cons_of_mem _ member)
      rw [write, List.flatMap_cons, List.append_assoc, List.singleton_append,
        linesFrom_append (plain l List.mem_cons_self).notMem_text, ← write, later]
      rfl

/-- A line that starts with a letter is an entry. -/
theorem readLine_of_letter {c : UInt8} (letter : isLetter c = true) (s : Text) :
    readLine (c :: s) =
      .entry (((c :: s).takeWhile (· ≠ 0x3d)).reverse.dropWhile isSpace).reverse
        ((((c :: s).dropWhile (· ≠ 0x3d)).drop 1).dropWhile isSpace) := by
  obtain ⟨-, -, notComment, -, notHeader⟩ := isLetter_spec letter
  rw [readLine]
  · simp
  · rintro _ ⟨⟩
    exact notComment rfl
  · rintro _ ⟨⟩
    exact notHeader rfl

theorem dropWhile_isSpace {s : Text} (noSpace : s.head? ≠ some 0x20) :
    s.dropWhile isSpace = s := by
  cases s with
  | nil => rfl
  | cons c s =>
      refine List.dropWhile_cons_of_neg fun space => noSpace ?_
      rw [of_decide_eq_true space]
      rfl

theorem readLine_entry {key value : Text} (plain : (Line.entry key value).Plain) :
    readLine (Line.entry key value).text = .entry key value := by
  obtain ⟨nonempty, letters, -, noSpace⟩ := plain
  have word : ∀ c ∈ key, decide (c ≠ 0x3d) = true := fun c member =>
    decide_eq_true (isLetter_spec (letters c member)).2.2.2.1
  have before : ((key ++ 0x20 :: 0x3d :: 0x20 :: value).takeWhile (· ≠ 0x3d)) = key ++ [0x20] := by
    rw [List.takeWhile_append_of_pos word]
    rfl
  have after : ((key ++ 0x20 :: 0x3d :: 0x20 :: value).dropWhile (· ≠ 0x3d)) =
      0x3d :: 0x20 :: value := by
    rw [List.dropWhile_append_of_pos word]
    rfl
  have trimmed : ((key ++ [0x20]).reverse.dropWhile isSpace).reverse = key := by
    have notSpace : key.reverse.head? ≠ some 0x20 := by
      intro isSpace
      have member : (0x20 : UInt8) ∈ key := List.mem_reverse.mp (List.mem_of_head? isSpace)
      exact (isLetter_spec (letters _ member)).2.1 rfl
    rw [List.reverse_append]
    exact (congrArg List.reverse (dropWhile_isSpace notSpace)).trans (List.reverse_reverse key)
  have start := readLine_of_letter (letters _ (List.head_mem nonempty))
    (key.tail ++ 0x20 :: 0x3d :: 0x20 :: value)
  rw [← List.cons_append, List.cons_head_tail] at start
  rw [Line.text, start, before, after, trimmed]
  exact congrArg (Line.entry key) (dropWhile_isSpace noSpace)

theorem readLine_text {l : Line} (plain : l.Plain) : readLine l.text = l := by
  cases l with
  | blank => rfl
  | comment text => rfl
  | header name =>
      have inside : ∀ c ∈ name, decide (c ≠ 0x5d) = true := fun c member =>
        decide_eq_true fun isEnd => plain.2 (isEnd ▸ member)
      show Line.header ((name ++ [0x5d]).takeWhile (· ≠ 0x5d)) = .header name
      rw [List.takeWhile_append_of_pos inside]
      exact congrArg Line.header (List.append_nil name)
  | entry key value => exact readLine_entry plain

/-- **What is written is read again.** -/
theorem read_write {lines : List Line} (plain : ∀ l ∈ lines, l.Plain) :
    read (write lines) = lines := by
  rw [read, linesFrom_write plain, List.map_map]
  exact (List.map_congr_left fun l member => readLine_text (plain l member)).trans (List.map_id _)

end Ini
