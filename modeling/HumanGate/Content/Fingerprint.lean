import Mathlib
import HumanGate.Lib.Joins
import HumanGate.Model.Publication

set_option autoImplicit false

/-! # The fingerprint sees blank parts

The normalised script is the words of the parts behind single spaces, with one space more for each
part without words that stands between two words (`normalizedScript_eq`). So two scripts of the same
words have one fingerprint exactly if their blank parts stand between the same words
(`fingerprint_eq_iff`).
-/

namespace HumanGate

open Lib

universe u

variable {δ : Type u} {lower : PyStr → PyStr} {sha256 : ByteArray → δ}
    {parts parts' : List (Option PyStr)}

/-- The words of a script. -/
def scriptWords (lower : PyStr → PyStr) (parts : List (Option PyStr)) : List PyStr :=
  parts.flatMap (partWords lower)

/-- How many blank or missing parts stand between each word of a script and the next. -/
def blankPartsBetween (lower : PyStr → PyStr) (parts : List (Option PyStr)) : List Nat :=
  Words.gaps (parts.map (partWords lower))

/-- No word contains half a surrogate pair. -/
def Encodable (words : List PyStr) : Prop := ∀ w ∈ words, ∀ c ∈ w, isSurrogate c = false

/-- The space that joins. -/
def space : CodePoint := ⟨0x20, by decide⟩

/-- The words of a script, each with the blank parts before it. -/
def spacedWords (lower : PyStr → PyStr) (parts : List (Option PyStr)) : List (Nat × PyStr) :=
  Words.spaced 0 (parts.map (partWords lower))

theorem spacedWords_isWord : ∀ p ∈ spacedWords lower parts, Words.IsWord PyStr.isSpace p.2 := by
  refine Words.isWord_spaced 0 fun piece hpiece w hw => ?_
  obtain ⟨part, _, rfl⟩ := List.mem_map.mp hpiece
  exact Words.isWord_of_mem hw

theorem spacedWords_words : (spacedWords lower parts).map Prod.snd = scriptWords lower parts :=
  Words.spaced_words 0 _

theorem normalizedScript_eq :
    normalizedScript lower parts = Words.tight space (spacedWords lower parts) := by
  have hpieces : ∀ piece ∈ parts.map (partWords lower), ∀ w ∈ piece,
      Words.IsWord PyStr.isSpace w := by
    intro piece hpiece w hw
    obtain ⟨part, _, rfl⟩ := List.mem_map.mp hpiece
    exact Words.isWord_of_mem hw
  have hspace : PyStr.isSpace space = true := by decide
  have hjoined := Words.strip_joined hspace hpieces
  rw [List.map_map] at hjoined
  exact hjoined

/-- **One script text**, for the same words behind the same gaps. -/
theorem normalizedScript_inj : normalizedScript lower parts = normalizedScript lower parts' ↔
    scriptWords lower parts = scriptWords lower parts' ∧
      blankPartsBetween lower parts = blankPartsBetween lower parts' := by
  have hspace : PyStr.isSpace space = true := by decide
  rw [normalizedScript_eq, normalizedScript_eq,
    Words.tight_inj hspace spacedWords_isWord spacedWords_isWord, spacedWords_words,
    spacedWords_words]
  rfl

theorem normalizedScript_eq_nil : normalizedScript lower parts = [] ↔
    scriptWords lower parts = [] := by
  rw [normalizedScript_eq, Words.tight_eq_nil spacedWords_isWord, ← spacedWords_words,
    List.map_eq_nil_iff]

/-! ## UTF-8 -/

theorem encodeUtf8_some {text : PyStr} (h : ∀ c ∈ text, isSurrogate c = false) :
    text.encodeUtf8 = some (String.ofList (text.map fun c => Char.ofNat c.val)).toByteArray := by
  unfold PyStr.encodeUtf8
  rw [if_neg]
  intro hany
  obtain ⟨c, hc, hsurrogate⟩ := List.any_eq_true.mp hany
  rw [h c hc] at hsurrogate
  exact nomatch hsurrogate

theorem encodeUtf8_none {text : PyStr} (h : ¬ ∀ c ∈ text, isSurrogate c = false) :
    text.encodeUtf8 = none := by
  unfold PyStr.encodeUtf8
  rw [if_pos]
  push Not at h
  obtain ⟨c, hc, hsurrogate⟩ := h
  exact List.any_eq_true.mpr ⟨c, hc, by simpa using hsurrogate⟩

/-- UTF-8 is read back in one way. -/
theorem encodeUtf8_inj {text text' : PyStr} (h : ∀ c ∈ text, isSurrogate c = false)
    (h' : ∀ c ∈ text', isSurrogate c = false) (heq : text.encodeUtf8 = text'.encodeUtf8) :
    text = text' := by
  rw [encodeUtf8_some h, encodeUtf8_some h'] at heq
  have hchars := String.ofList_injective (String.toByteArray_inj.mp (Option.some.inj heq))
  have hnats : ∀ {t : PyStr}, (∀ c ∈ t, isSurrogate c = false) →
      ((t.map fun c => Char.ofNat c.val).map fun c => c.toNat) = t.map Fin.val := by
    intro t ht
    rw [List.map_map]
    exact List.map_congr_left fun c hc => toNat_ofNat (ht c hc)
  have hvals : text.map Fin.val = text'.map Fin.val := by
    rw [← hnats h, ← hnats h', hchars]
  exact List.map_injective_iff.mpr Fin.val_injective hvals

/-! ## Fingerprints -/

theorem encodable_iff : (∀ c ∈ normalizedScript lower parts, isSurrogate c = false) ↔
    Encodable (scriptWords lower parts) := by
  unfold Encodable
  rw [normalizedScript_eq, ← spacedWords_words]
  exact Words.forall_tight (p := fun c => isSurrogate c = false) (by decide)

/-- **What has a fingerprint**, and which. -/
theorem fingerprintScript_ok {d : δ} : fingerprintScript lower sha256 parts = .ok d ↔
    scriptWords lower parts ≠ [] ∧ Encodable (scriptWords lower parts) ∧
      ∃ bytes, (normalizedScript lower parts).encodeUtf8 = some bytes ∧ d = sha256 bytes := by
  unfold fingerprintScript
  rw [← encodable_iff, Ne, ← normalizedScript_eq_nil]
  by_cases hempty : normalizedScript lower parts = []
  · rw [if_pos hempty]
    exact iff_of_false (fun h => nomatch h) fun h => h.1 hempty
  · rw [if_neg hempty]
    by_cases hclean : ∀ c ∈ normalizedScript lower parts, isSurrogate c = false
    · rw [encodeUtf8_some hclean]
      constructor
      · intro h
        cases h
        exact ⟨hempty, hclean, _, rfl, rfl⟩
      · rintro ⟨_, _, bytes, hbytes, rfl⟩
        cases hbytes
        rfl
    · rw [encodeUtf8_none hclean]
      exact iff_of_false (fun h => nomatch h) fun h => hclean h.2.1

/-- **When two scripts share a fingerprint.** Scripts of the same words do exactly if these can be
encoded and the blank parts stand between the same words, as many of them; scripts of other words
never do, as far as the digest tells texts apart. -/
theorem fingerprint_eq_iff (lower : PyStr → PyStr) (sha256 : ByteArray → δ)
    (hsha256 : Function.Injective sha256) (parts parts' : List (Option PyStr)) :
    (scriptWords lower parts ≠ [] → scriptWords lower parts = scriptWords lower parts' →
      ((∃ d, fingerprintScript lower sha256 parts = .ok d ∧
          fingerprintScript lower sha256 parts' = .ok d) ↔
        Encodable (scriptWords lower parts) ∧
          blankPartsBetween lower parts = blankPartsBetween lower parts')) ∧
    ∀ d d', fingerprintScript lower sha256 parts = .ok d →
      fingerprintScript lower sha256 parts' = .ok d' →
      scriptWords lower parts ≠ scriptWords lower parts' → d ≠ d' := by
  -- one digest is one text
  have hsame : ∀ d, fingerprintScript lower sha256 parts = .ok d →
      fingerprintScript lower sha256 parts' = .ok d →
      normalizedScript lower parts = normalizedScript lower parts' := by
    intro d h h'
    obtain ⟨_, hclean, bytes, hbytes, hd⟩ := fingerprintScript_ok.mp h
    obtain ⟨_, hclean', bytes', hbytes', hd'⟩ := fingerprintScript_ok.mp h'
    have heq : bytes = bytes' := hsha256 (hd.symm.trans hd')
    refine encodeUtf8_inj (encodable_iff.mpr hclean) (encodable_iff.mpr hclean') ?_
    rw [hbytes, hbytes', heq]
  constructor
  · intro hwords heq
    constructor
    · rintro ⟨d, h, h'⟩
      exact ⟨(fingerprintScript_ok.mp h).2.1, (normalizedScript_inj.mp (hsame d h h')).2⟩
    · rintro ⟨hclean, hgaps⟩
      have htext := normalizedScript_inj.mpr ⟨heq, hgaps⟩
      have hbytes := encodeUtf8_some (encodable_iff.mpr hclean)
      refine ⟨_, fingerprintScript_ok.mpr ⟨hwords, hclean, _, hbytes, rfl⟩, ?_⟩
      refine fingerprintScript_ok.mpr ⟨heq ▸ hwords, heq ▸ hclean, _, ?_, rfl⟩
      rw [← htext]
      exact hbytes
  · intro d d' h h' hwords heq
    subst heq
    exact hwords (normalizedScript_inj.mp (hsame d h h')).1

/-! ## A blank part -/

/-- SHA-256 of the two texts below, and any other bytes as they are. -/
def digest (bytes : ByteArray) : String ⊕ ByteArray :=
  if bytes = "a b".toByteArray then
    .inl "c8687a08aa5d6ed2044328fa6a697ab8e96dc34291e8c2034ae8c38e6fcc6d65"
  else if bytes = "a  b".toByteArray then
    .inl "6e12db73209a66d147a67a15868bdb4b8ae57b884d4731310b62f82a7d67611e"
  else .inr bytes

theorem digest_injective : Function.Injective digest := by
  intro bytes bytes' h
  unfold digest at h
  split at h
  · rename_i hone
    split at h
    · rename_i hone'
      rw [hone, hone']
    · split at h
      · exact absurd (Sum.inl.inj h) (by decide)
      · exact nomatch h
  · split at h
    · rename_i htwo
      split at h
      · exact absurd (Sum.inl.inj h) (by decide)
      · split at h
        · rename_i htwo'
          rw [htwo, htwo']
        · exact nomatch h
    · split at h
      · exact nomatch h
      · split at h
        · exact nomatch h
        · exact Sum.inr.inj h

def letterA : Option PyStr := some (PyStr.lit " A")

def letterB : Option PyStr := some (PyStr.lit "b")

/-- Upper case, whitespace and blank parts at the ends do not matter. -/
theorem edits_not_seen : ∃ d,
    fingerprintScript PyStr.lowerAscii digest [letterA, letterB] = .ok d ∧
      fingerprintScript PyStr.lowerAscii digest [none, some (PyStr.lit "a\n B "), none]
        = .ok d := by
  have hwords : scriptWords PyStr.lowerAscii [letterA, letterB] = [[97], [98]] := by decide +kernel
  have hclean : Encodable (scriptWords PyStr.lowerAscii [letterA, letterB]) := by
    rw [hwords]
    intro w hw c hc
    rcases List.mem_pair.mp hw with rfl | rfl
    all_goals
      rw [List.mem_singleton.mp hc]
      decide
  refine ((fingerprint_eq_iff PyStr.lowerAscii digest digest_injective _ _).1 ?_ ?_).mpr
    ⟨hclean, ?_⟩
  · rw [hwords]
    exact List.cons_ne_nil _ _
  · decide +kernel
  · decide +kernel

/-- The same two words with a missing part between them have another fingerprint. -/
theorem blank_part_seen :
    scriptWords PyStr.lowerAscii [letterA, none, letterB] = [[97], [98]] ∧
      scriptWords PyStr.lowerAscii [letterA, letterB] = [[97], [98]] ∧
      ¬ ∃ d, fingerprintScript PyStr.lowerAscii digest [letterA, none, letterB] = .ok d ∧
        fingerprintScript PyStr.lowerAscii digest [letterA, letterB] = .ok d := by
  have hblank : fingerprintScript PyStr.lowerAscii digest [letterA, none, letterB]
      = .ok (.inl "6e12db73209a66d147a67a15868bdb4b8ae57b884d4731310b62f82a7d67611e") := by
    decide +kernel
  have hplain : fingerprintScript PyStr.lowerAscii digest [letterA, letterB]
      = .ok (.inl "c8687a08aa5d6ed2044328fa6a697ab8e96dc34291e8c2034ae8c38e6fcc6d65") := by
    decide +kernel
  refine ⟨by decide +kernel, by decide +kernel, ?_⟩
  rintro ⟨d, h, h'⟩
  rw [hblank] at h
  rw [hplain] at h'
  have hdigits := Sum.inl.inj (Except.ok.inj (h.trans h'.symm))
  exact absurd hdigits (by decide)

end HumanGate
