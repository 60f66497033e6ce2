import Mathlib.Data.List.DropRight
import Mathlib.Tactic

set_option autoImplicit false

/-! # The words of a text

`words` are the pieces of a text between its whitespace, without empty ones, and `strip` drops the
whitespace at both ends; what counts as whitespace is a parameter. Stripping does not change the
words (`words_strip`), and a text has words exactly if something is left when it is stripped
(`strip_eq_nil`).
-/

namespace Lib.Words

universe u

variable {α : Type u} (isSpace : α → Bool)

/-- The code points that Unicode counts as whitespace, and the separators of ASCII. -/
def isUnicodeSpace (code : Nat) : Bool :=
  decide ((0x09 ≤ code ∧ code ≤ 0x0D) ∨ (0x1C ≤ code ∧ code ≤ 0x20) ∨
    (0x2000 ≤ code ∧ code ≤ 0x200A)) ||
    [0x85, 0xA0, 0x1680, 0x2028, 0x2029, 0x202F, 0x205F, 0x3000].contains code

/-- The zeros of the scripts that have decimal digits; the other nine digits follow each of them. -/
def decimalZeros : List Nat :=
  [0x30, 0x660, 0x6F0, 0x7C0, 0x966, 0x9E6, 0xA66, 0xAE6, 0xB66, 0xBE6, 0xC66, 0xCE6, 0xD66,
    0xDE6, 0xE50, 0xED0, 0xF20, 0x1040, 0x1090, 0x17E0, 0x1810, 0x1946, 0x19D0, 0x1A80, 0x1A90,
    0x1B50, 0x1BB0, 0x1C40, 0x1C50, 0xA620, 0xA8D0, 0xA900, 0xA9D0, 0xA9F0, 0xAA50, 0xABF0,
    0xFF10, 0x104A0, 0x10D30, 0x11066, 0x110F0, 0x11136, 0x111D0, 0x112F0, 0x11450, 0x114D0,
    0x11650, 0x116C0, 0x11730, 0x118E0, 0x11950, 0x11C50, 0x11D50, 0x11DA0, 0x11F50, 0x16A60,
    0x16AC0, 0x16B50, 0x1D7CE, 0x1D7D8, 0x1D7E2, 0x1D7EC, 0x1D7F6, 0x1E140, 0x1E2F0, 0x1E4F0,
    0x1E950, 0x1FBF0]

/-- The value of a decimal digit of Unicode. -/
def decimalDigit? (code : Nat) : Option Nat :=
  (decimalZeros.find? fun first => decide (first ≤ code ∧ code < first + 10)).map (code - ·)

def words (text : List α) : List (List α) := (text.splitOnP isSpace).filter fun w => ! w.isEmpty

def strip (text : List α) : List α := (text.dropWhile isSpace).rdropWhile isSpace

variable {isSpace} {text : List α} {c : α}

theorem words_nil : words isSpace [] = [] := rfl

/-- Whitespace before a text. -/
theorem words_cons_space (h : isSpace c = true) :
    words isSpace (c :: text) = words isSpace text := by
  unfold words
  rw [List.splitOnP_cons_eq_if_modifyHead, if_pos h]
  rfl

/-- Whitespace after a text begins an empty piece. -/
theorem splitOnP_concat_space (h : isSpace c = true) :
    (text ++ [c]).splitOnP isSpace = text.splitOnP isSpace ++ [[]] := by
  induction text with
  | nil =>
      rw [List.nil_append, List.splitOnP_cons_eq_if_modifyHead, if_pos h, List.splitOnP_nil]
      rfl
  | cons first rest ih =>
      rw [List.cons_append, List.splitOnP_cons_eq_if_modifyHead,
        List.splitOnP_cons_eq_if_modifyHead, ih]
      by_cases hfirst : isSpace first = true
      · rw [if_pos hfirst, if_pos hfirst]
        rfl
      · rw [if_neg hfirst, if_neg hfirst]
        cases hsplit : rest.splitOnP isSpace with
        | nil => exact absurd hsplit (List.splitOnP_ne_nil _ _)
        | cons piece pieces => rfl

theorem words_concat_space (h : isSpace c = true) :
    words isSpace (text ++ [c]) = words isSpace text := by
  unfold words
  rw [splitOnP_concat_space h, List.filter_append]
  exact List.append_nil _

theorem words_dropWhile : words isSpace (text.dropWhile isSpace) = words isSpace text := by
  induction text with
  | nil => rfl
  | cons first rest ih =>
      by_cases hfirst : isSpace first = true
      · rw [List.dropWhile_cons_of_pos hfirst, ih, words_cons_space hfirst]
      · rw [List.dropWhile_cons_of_neg hfirst]

theorem words_rdropWhile : words isSpace (text.rdropWhile isSpace) = words isSpace text := by
  induction text using List.reverseRecOn with
  | nil => rfl
  | append_singleton rest last ih =>
      by_cases hlast : isSpace last = true
      · rw [List.rdropWhile_concat_pos _ _ _ hlast, ih, words_concat_space hlast]
      · rw [List.rdropWhile_concat_neg _ _ _ hlast]

/-- **Stripping a text** does not change its words. -/
theorem words_strip : words isSpace (strip isSpace text) = words isSpace text := by
  unfold strip
  rw [words_rdropWhile, words_dropWhile]

theorem filter_dropWhile : (text.dropWhile isSpace).filter (fun c => ! isSpace c)
    = text.filter fun c => ! isSpace c := by
  induction text with
  | nil => rfl
  | cons first rest ih =>
      by_cases hfirst : isSpace first = true
      · rw [List.dropWhile_cons_of_pos hfirst, ih, List.filter_cons_of_neg (by simp [hfirst])]
      · rw [List.dropWhile_cons_of_neg hfirst]

theorem filter_rdropWhile : (text.rdropWhile isSpace).filter (fun c => ! isSpace c)
    = text.filter fun c => ! isSpace c := by
  unfold List.rdropWhile
  rw [List.filter_reverse, filter_dropWhile, List.filter_reverse, List.reverse_reverse]

/-- **Stripping a text** keeps what is no whitespace. -/
theorem filter_strip : (strip isSpace text).filter (fun c => ! isSpace c)
    = text.filter fun c => ! isSpace c := by
  unfold strip
  rw [filter_rdropWhile, filter_dropWhile]

theorem length_filter_le_strip :
    (text.filter fun c => ! isSpace c).length ≤ (strip isSpace text).length := by
  rw [← filter_strip]
  exact List.length_filter_le _ _

/-- A text that does not begin with whitespace begins with a word. -/
theorem words_cons_ne_nil (h : ¬ isSpace c = true) : words isSpace (c :: text) ≠ [] := by
  unfold words
  rw [List.splitOnP_cons_eq_if_modifyHead, if_neg h]
  cases hsplit : text.splitOnP isSpace with
  | nil => exact absurd hsplit (List.splitOnP_ne_nil _ _)
  | cons piece pieces =>
      show (((c :: piece) :: pieces).filter fun w => ! w.isEmpty) ≠ []
      rw [List.filter_cons_of_pos rfl]
      exact List.cons_ne_nil _ _

/-- Without words there is only whitespace. -/
theorem strip_eq_nil : strip isSpace text = [] ↔ words isSpace text = [] := by
  constructor
  · intro h
    rw [← words_strip, h, words_nil]
  · intro h
    unfold strip
    cases hdrop : text.dropWhile isSpace with
    | nil => rfl
    | cons first rest =>
        have hfirst : ¬ isSpace first = true := by
          have hne : text.dropWhile isSpace ≠ [] := by
            rw [hdrop]
            exact List.cons_ne_nil _ _
          have hhead := List.head_dropWhile_not isSpace hne
          simpa [hdrop] using hhead
        rw [← words_dropWhile, hdrop] at h
        exact absurd h (words_cons_ne_nil hfirst)

theorem ne_nil_of_mem_words {w : List α} (h : w ∈ words isSpace text) : w ≠ [] := by
  have hw := (List.mem_filter.mp h).2
  intro hnil
  rw [hnil] at hw
  exact nomatch hw

/-- Words joined are empty only if there are none. -/
theorem join_eq_nil (sep : List α) :
    sep.intercalate (words isSpace text) = [] ↔ words isSpace text = [] := by
  constructor
  · intro h
    cases hwords : words isSpace text with
    | nil => rfl
    | cons w ws =>
        have hw : w ≠ [] := ne_nil_of_mem_words (hwords ▸ List.mem_cons_self)
        rw [hwords] at h
        cases ws with
        | nil => exact absurd (by simpa using h) hw
        | cons v vs =>
            rw [List.intercalate_cons_cons] at h
            exact absurd (List.append_eq_nil_iff.mp (List.append_eq_nil_iff.mp h).1).1 hw
  · intro h
    rw [h]
    rfl

end Lib.Words
