import Mathlib
import HumanGate.Model.LeonState

set_option autoImplicit false

/-! # Leon's voice output

`LeonSpeechController` with the main looper that it posts to. What the text-to-speech engine answers
and reports is up to the engine; an utterance is named by the 32-bit counter. -/

namespace HumanGate

open Lib

inductive SpeechStatus where
  | initializing
  | ready
  | speaking
  | error
  deriving DecidableEq, Repr

abbrev UtteranceId := BitVec 32

/-- What is posted to the main looper. -/
inductive SpeechPost where
  | onInit (success : Bool)
  | onStart (utteranceId : Option UtteranceId)
  | finish (utteranceId : Option UtteranceId) (error : Option String)
  | speak (text : String)
  | stop
  | shutdown
  deriving DecidableEq, Repr

/-- What the engine answers while one post runs. -/
structure EngineReply where
  deviceLanguage : Bool
  usLanguage : Bool
  accepts : Bool

structure LeonSpeech where
  states : LeonStateController
  status : SpeechStatus
  detail : Option String
  ready : Bool
  released : Bool
  pendingText : Option String
  activeUtteranceId : Option UtteranceId
  utteranceCounter : UtteranceId
  /-- The main looper's queue. -/
  posted : List SpeechPost
  /-- What was handed to the engine. -/
  spoken : List (UtteranceId × String)

namespace LeonSpeech

def initial : LeonSpeech where
  states := .initial
  status := .initializing
  detail := none
  ready := false
  released := false
  pendingText := none
  activeUtteranceId := none
  utteranceCounter := 0
  posted := []
  spoken := []

def request (s : LeonSpeech) (next : LeonState) : LeonSpeech :=
  { s with states := s.states.request next }

def setStatus (s : LeonSpeech) (next : SpeechStatus) (detail : String) : LeonSpeech :=
  { s with status := next, detail := some detail }

def isActive (s : LeonSpeech) (utteranceId : Option UtteranceId) : Bool :=
  !s.released && utteranceId.isSome && decide (utteranceId = s.activeUtteranceId)

def fail (s : LeonSpeech) (message : String) : LeonSpeech :=
  ({ s with ready := false, activeUtteranceId := none }.request .idle).setStatus .error message

def speakReady (s : LeonSpeech) (reply : EngineReply) (text : String) : LeonSpeech :=
  let utteranceId := s.utteranceCounter + 1
  let s := { s with
    utteranceCounter := utteranceId
    activeUtteranceId := some utteranceId
    spoken := s.spoken ++ [(utteranceId, text)] }
  if reply.accepts then s
  else
    ({ s with activeUtteranceId := none }.request .idle).setStatus .error
      "The installed text-to-speech engine rejected that utterance."

/-- The engine has come up, or has not. -/
def runInit (s : LeonSpeech) (reply : EngineReply) (success : Bool) : LeonSpeech :=
  if s.released then s
  else if !success then s.fail "Text-to-speech could not start on this device."
  else if !reply.deviceLanguage && !reply.usLanguage then
    s.fail "No supported English text-to-speech voice is installed."
  else
    let s := { s with ready := true }.setStatus .ready "Voice ready."
    match s.pendingText with
    | none => s
    | some queued => { s with pendingText := none }.speakReady reply queued

def runStart (s : LeonSpeech) (utteranceId : Option UtteranceId) : LeonSpeech :=
  if !s.isActive utteranceId then s
  else (s.request .speaking).setStatus .speaking "Leon is speaking."

def runFinish (s : LeonSpeech) (utteranceId : Option UtteranceId) (error : Option String) :
    LeonSpeech :=
  if !s.isActive utteranceId then s
  else
    let s := { s with activeUtteranceId := none }.request .idle
    match error with
    | some error => s.setStatus .error error
    | none => s.setStatus .ready "Voice ready."

def runSpeak (s : LeonSpeech) (reply : EngineReply) (spoken : String) : LeonSpeech :=
  if s.released then s
  else if !s.ready then
    { s with pendingText := some spoken }.setStatus .initializing "Voice is getting ready..."
  else s.speakReady reply spoken

def runStop (s : LeonSpeech) : LeonSpeech :=
  if s.released then s
  else
    let s := { s with pendingText := none, activeUtteranceId := none }.request .idle
    if s.ready then s.setStatus .ready "Voice stopped."
    else s.setStatus .initializing "Voice is getting ready..."

def runShutdown (s : LeonSpeech) : LeonSpeech :=
  if s.released then s
  else { s with released := true, pendingText := none, activeUtteranceId := none }.request .idle

def run (s : LeonSpeech) (reply : EngineReply) : SpeechPost → LeonSpeech
  | .onInit success => s.runInit reply success
  | .onStart utteranceId => s.runStart utteranceId
  | .finish utteranceId error => s.runFinish utteranceId error
  | .speak text => s.runSpeak reply text
  | .stop => s.runStop
  | .shutdown => s.runShutdown

def post (s : LeonSpeech) (p : SpeechPost) : LeonSpeech :=
  { s with posted := s.posted ++ [p] }

/-- The text that `speak` posts, unless it is blank or the controller is released. -/
def accepts (s : LeonSpeech) (text : Option String) : Option String :=
  match text with
  | none => none
  | some text =>
      if s.released || (JavaString.trim text.toList).isEmpty then none
      else some (String.ofList (JavaString.trim text.toList))

/-- The post at the head of the queue runs. -/
def runPosted (s : LeonSpeech) (reply : EngineReply) : LeonSpeech :=
  match s.posted with
  | [] => s
  | p :: rest => { s with posted := rest }.run reply p

end LeonSpeech

/-- What else moves the shared state: gestures, frames and test buttons. -/
inductive Gesture where
  | request (next : LeonState)
  | toggleMinimised
  | restore
  | poke
  | tick (now : ℤ)

def Gesture.exec (c : LeonStateController) : Gesture → LeonStateController
  | .request next => c.request next
  | .toggleMinimised => c.toggleMinimised
  | .restore => c.restore
  | .poke => c.poke
  | .tick now => c.tick now

inductive SpeechOp where
  | speak (text : Option String)
  | stop
  | shutdown
  /-- The engine calls `onInit`. -/
  | engineInit (success : Bool)
  | engineStart (utteranceId : Option UtteranceId)
  /-- The engine calls `onDone`, `onStop` or `onError`. -/
  | engineFinish (utteranceId : Option UtteranceId) (error : Option String)
  | runPosted (reply : EngineReply)
  | gesture (g : Gesture)

def SpeechOp.exec (s : LeonSpeech) : SpeechOp → LeonSpeech
  | .speak text =>
      match s.accepts text with
      | none => s
      | some spoken => s.post (.speak spoken)
  | .stop => s.post .stop
  | .shutdown => s.post .shutdown
  | .engineInit success => s.post (.onInit success)
  | .engineStart utteranceId => s.post (.onStart utteranceId)
  | .engineFinish utteranceId error => s.post (.finish utteranceId error)
  | .runPosted reply => s.runPosted reply
  | .gesture g => { s with states := g.exec s.states }

/-- The speech of a process that starts in no speaking state, where only this controller makes Leon
speak. That is an assumption: a reply of `LeonConversationController` and the button of the control
centre request `SPEAKING` too, and a state that was stored can be it. -/
def speech : System LeonSpeech SpeechOp where
  init s := s = LeonSpeech.initial
  allowed s
    | .gesture (.request next) => next ≠ .speaking
    | .gesture (.tick now) => s.states.lastTickNanos = 0 ∨ s.states.lastTickNanos ≤ now
    | _ => True
  exec := SpeechOp.exec

/-- The texts that `speak` has accepted. -/
def acceptedBy (s : LeonSpeech) : SpeechOp → List String
  | .speak text => (s.accepts text).toList
  | _ => []

end HumanGate
