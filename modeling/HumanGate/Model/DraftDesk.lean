import HumanGate.Model.Text

set_option autoImplicit false

/-! # The two Draft Desk generators

`app/services/draft_desk.py` of the API and `worker/executors/draft_desk.py` of the worker: both
turn an assignment context into a draft, or into the text of an error. A value of the context may be
of any type: what it is known by is what `bool`, `str` and `int` make of it. `str.lower` is a
parameter.
-/

namespace HumanGate

open Lib

/-- An exception: its class, whether that is a `TypeError` or a `ValueError`, and its text. -/
structure PyException where
  className : String
  isTypeError : Bool
  isValueError : Bool
  text : PyStr
  deriving DecidableEq

def PyException.valueError (text : String) : PyException :=
  ⟨"ValueError", false, true, PyStr.lit text⟩

/-- A value that is not `None`. -/
structure PyValue where
  bool : Except PyException Bool
  str : Except PyException PyStr
  int : Except PyException ℤ

/-- The keys of an assignment context that the generators read; `none` for a missing key and for
`None`. -/
structure AssignmentContext where
  stage : Option PyValue := none
  topic : Option PyValue := none
  targetLengthSeconds : Option PyValue := none

namespace DraftDesk

/-- `str(value or "")`. -/
def strOrEmpty : Option PyValue → Except PyException PyStr
  | none => .ok []
  | some value => do
      if ← value.bool then value.str else return []

/-- `int(value) if value is not None else None`, and `None` where that raises a `TypeError` or a
`ValueError`. -/
def lengthOf : Option PyValue → Except PyException (Option ℤ)
  | none => .ok none
  | some value =>
      match value.int with
      | .ok length => .ok (some length)
      | .error e => if e.isTypeError || e.isValueError then .ok none else .error e

/-- `sys.int_info.default_max_str_digits`. -/
def maxStrDigits : Nat := 4300

/-- An integer in an f-string. -/
def formatInt (n : ℤ) : Except PyException PyStr :=
  if 10 ^ maxStrDigits ≤ n.natAbs then
    .error (.valueError ("Exceeds the limit (4300 digits) for integer string conversion; " ++
      "use sys.set_int_max_str_digits() to increase the limit"))
  else .ok (PyStr.lit (toString n))

structure DraftResult where
  provider : PyStr
  scriptHook : PyStr
  scriptBody : PyStr
  scriptCta : PyStr
  estimatedCostUsd : PyStr
  topic : PyStr
  deriving DecidableEq

/-- What a generator returns: whether it succeeded, the result, and the text of the error. -/
abbrev StageTriple := Bool × Option DraftResult × PyStr

def executableStages : List PyStr := [PyStr.lit "scripting", PyStr.lit "idea"]

/-- A refusal. -/
def refuse (error : PyStr) : StageTriple := (false, none, error)

/-! ## The texts -/

/-- `f"Aim for about {length} seconds."`, or the note without a length. -/
def lengthNote : Option ℤ → Except PyException PyStr
  | none => .ok (PyStr.lit "Keep the piece concise and skimmable.")
  | some length => do
      return PyStr.lit "Aim for about " ++ (← formatInt length) ++ PyStr.lit " seconds."

def hookOf (cleaned : PyStr) : PyStr :=
  PyStr.lit "What if " ++ cleaned ++ PyStr.lit " is the lever your audience has been missing?"

def bodyOf (hook cleaned note : PyStr) : PyStr :=
  hook ++ PyStr.lit "\n\nToday we unpack " ++ cleaned ++ PyStr.lit ". " ++ note ++
    PyStr.lit "\n\n1) Why " ++ cleaned ++ PyStr.lit " matters now\n" ++
    PyStr.lit "2) The mistake most teams make\n" ++
    PyStr.lit "3) A practical next step you can take today\n\n" ++
    PyStr.lit "Close with a clear takeaway your viewer can repeat."

def ctaOf (cleaned : PyStr) : PyStr :=
  PyStr.lit "If this helped, save it and try one change around " ++ cleaned ++
    PyStr.lit " this week."

/-- `f"unsupported draft_desk stage '{stage or 'unknown'}'"`. -/
def unsupported (stage : PyStr) : PyStr :=
  PyStr.lit "unsupported draft_desk stage '" ++
    (if stage = [] then PyStr.lit "unknown" else stage) ++ PyStr.lit "'"

/-! ## The API -/

structure DraftDeskOutput where
  scriptHook : PyStr
  scriptBody : PyStr
  scriptCta : PyStr
  provider : PyStr := PyStr.lit "draft_desk"
  estimatedCostUsd : PyStr := PyStr.lit "0.01"

def generateScriptDraft (topic : PyStr) (targetLengthSeconds : Option ℤ) :
    Except PyException DraftDeskOutput :=
  let cleaned := PyStr.joinSpace (PyStr.split (PyStr.strip topic))
  if cleaned = [] then .error (.valueError "topic is required for Draft Desk generation")
  else do
    let note ← lengthNote targetLengthSeconds
    let hook := hookOf cleaned
    return {
      scriptHook := hook
      scriptBody := bodyOf hook cleaned note
      scriptCta := ctaOf cleaned }

variable (lower : PyStr → PyStr)

def executeStage (context : AssignmentContext) : Except PyException StageTriple := do
  let stage := lower (PyStr.strip (← strOrEmpty context.stage))
  let topic := PyStr.strip (← strOrEmpty context.topic)
  let length ← lengthOf context.targetLengthSeconds
  if stage ∈ executableStages then
    if topic = [] then
      return refuse (PyStr.lit "draft_desk requires topic in assignment context")
    else
      match generateScriptDraft topic length with
      | .error e => if e.isValueError then return refuse e.text else throw e
      | .ok draft =>
          return (true, some
            { provider := draft.provider, scriptHook := draft.scriptHook
              scriptBody := draft.scriptBody, scriptCta := draft.scriptCta
              estimatedCostUsd := draft.estimatedCostUsd
              topic := PyStr.joinSpace (PyStr.split topic) }, [])
  else if stage = PyStr.lit "review" then
    return refuse (PyStr.lit "review stage is human-gated; workers must not execute it")
  else return refuse (unsupported stage)

/-! ## The worker -/

def draftDeskExecutor (context : AssignmentContext) : Except PyException StageTriple := do
  let stage := lower (PyStr.strip (← strOrEmpty context.stage))
  let topic := PyStr.strip (← strOrEmpty context.topic)
  let length ← lengthOf context.targetLengthSeconds
  if stage = PyStr.lit "review" then
    return refuse (PyStr.lit "review stage is human-gated; workers must not execute it")
  else if stage ∈ executableStages then
    if topic = [] then
      return refuse (PyStr.lit "draft_desk requires topic in assignment context")
    else do
      let cleaned := PyStr.joinSpace (PyStr.split topic)
      let hook := hookOf cleaned
      let note ← lengthNote length
      return (true, some
        { provider := PyStr.lit "draft_desk", scriptHook := hook
          scriptBody := bodyOf hook cleaned note, scriptCta := ctaOf cleaned
          estimatedCostUsd := PyStr.lit "0.01", topic := cleaned }, [])
  else return refuse (unsupported stage)

end DraftDesk

end HumanGate
