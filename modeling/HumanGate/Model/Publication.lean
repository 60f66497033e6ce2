import HumanGate.Model.Text

set_option autoImplicit false

/-! # The originality fingerprint

`fingerprint_script` of `app/services/publication_policy.py`. `str.lower` and the digest are
parameters.
-/

namespace HumanGate

universe u

/-- A failed control, and the `UnicodeEncodeError` of half a surrogate pair. -/
inductive FingerprintError where
  | publicationBlocked (code message : String)
  | surrogatesNotAllowed
  deriving DecidableEq

/-- `text.encode("utf-8")`. -/
def PyStr.encodeUtf8 (text : PyStr) : Option ByteArray :=
  if text.any isSurrogate then none
  else some (String.ofList (text.map fun c => Char.ofNat c.val)).toByteArray

variable {δ : Type u} (lower : PyStr → PyStr) (sha256 : ByteArray → δ)

/-- `(part or "").lower().split()`. -/
def partWords (part : Option PyStr) : List PyStr := (lower (part.getD [])).split

def normalizedScript (parts : List (Option PyStr)) : PyStr :=
  (PyStr.joinSpace (parts.map fun part => PyStr.joinSpace (partWords lower part))).strip

/-- `sha256` is the digest as hexadecimal digits. -/
def fingerprintScript (parts : List (Option PyStr)) : Except FingerprintError δ :=
  if normalizedScript lower parts = [] then
    .error (.publicationBlocked "originality_fingerprint_missing"
      "cannot fingerprint empty script content")
  else
    match (normalizedScript lower parts).encodeUtf8 with
    | none => .error .surrogatesNotAllowed
    | some bytes => .ok (sha256 bytes)

end HumanGate
