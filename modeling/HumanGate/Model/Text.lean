import HumanGate.Lib.Words

set_option autoImplicit false

/-! # Python strings

A Python string is a sequence of code points. Not all of them are characters: a JSON text may escape
one half of a surrogate pair.
-/

namespace HumanGate

open Lib

abbrev CodePoint := Fin 0x110000

abbrev PyStr := List CodePoint

instance : LawfulBEq PyStr := inferInstance

/-- Half of a surrogate pair. -/
def isSurrogate (c : CodePoint) : Bool := decide (0xD800 ≤ c.val ∧ c.val ≤ 0xDFFF)

/-- A code point that is no surrogate is a character. -/
theorem toNat_ofNat {c : CodePoint} (h : isSurrogate c = false) :
    (Char.ofNat c.val).toNat = c.val := by
  have hvalid : c.val.isValidChar := by
    have hnot := of_decide_eq_false h
    have hlt := c.isLt
    rcases Nat.lt_or_ge c.val 0xD800 with hlow | hhigh
    · exact .inl hlow
    · exact .inr ⟨by omega, hlt⟩
  unfold Char.ofNat
  rw [dif_pos hvalid]
  rfl

namespace PyStr

/-- A string of the source. -/
def lit (text : String) : PyStr := text.toList.map fun c => Fin.ofNat _ c.toNat

def isSpace (c : CodePoint) : Bool := Words.isUnicodeSpace c

/-- `text.strip()`. -/
def strip (text : PyStr) : PyStr := Words.strip isSpace text

/-- `text.split()`. -/
def split (text : PyStr) : List PyStr := Words.words isSpace text

/-- `" ".join(words)`. -/
def joinSpace (words : List PyStr) : PyStr := (lit " ").intercalate words

/-- `text.lower()` where only the letters of ASCII matter. -/
def lowerAscii (text : PyStr) : PyStr :=
  text.map fun c => if 0x41 ≤ c.val ∧ c.val ≤ 0x5A then Fin.ofNat _ (c.val + 0x20) else c

/-- The text as the database stores it. It refuses a NUL and half of a surrogate pair. -/
def stored? (text : PyStr) : Option String :=
  if text.any fun c => isSurrogate c || c.val == 0 then none
  else some (String.ofList (text.map fun c => Char.ofNat c.val))

/-- What is stored is the text. -/
theorem lit_of_stored {text : PyStr} {s : String} (h : text.stored? = some s) : lit s = text := by
  unfold stored? at h
  split at h
  · cases h
  · rename_i hclean
    cases h
    have hsame : ∀ c ∈ text, Fin.ofNat 0x110000 (Char.ofNat c.val).toNat = c := by
      intro c hc
      have hno : isSurrogate c = false := by
        by_contra hyes
        refine hclean (List.any_eq_true.mpr ⟨c, hc, ?_⟩)
        rw [Bool.not_eq_false] at hyes
        rw [hyes, Bool.true_or]
      rw [toNat_ofNat hno]
      exact Fin.ofNat_val_eq_self c
    unfold lit
    rw [String.toList_ofList, List.map_map]
    exact (List.map_congr_left hsame).trans (List.map_id text)

end PyStr

end HumanGate
