import HumanGate.Lib.System

set_option autoImplicit false

/-! # The companion's conversation

The Android companion: `LeonConversationController`, `LeonVoiceBackend` and the two recorders. The
main thread runs one callback at a time, what the user does or what was posted to it. The capture
threads and the callbacks of the HTTP client run beside it, so a reply is handled in several steps.
The voice backend is attached when the app starts and stays attached.
-/

namespace HumanGate

open Lib

inductive ConversationStatus where
  | idle | listening | thinking | speaking
  deriving DecidableEq

structure HistoryTurn where
  role : String
  content : String
  deriving DecidableEq

/-- Bytes of 16-bit PCM. -/
abbrev Clip := List UInt8

/-- What is posted to the main thread. -/
inductive PostedCallback where
  | recorded (clip : Clip)
  | recordFailed (message : String)
  | speechStarted
  | speechCaptured (clip : Clip)
  | speechRejected
  | listenFailed (message : String)
  | playbackFinished (id : Nat)
  | playbackFailed (id : Nat) (message : String)
  deriving DecidableEq

/-- What a step of a capture thread leaves: the thread, the flag it shares with the main thread, and
what it posts. -/
structure ThreadStep (θ : Type) where
  thread : θ
  flag : Bool
  posts : List PostedCallback := []

/-! ## Push-to-talk -/

/-- `captureLoop`: before the loop, at its condition, in `read`, and after it. -/
inductive CaptureThread where
  | opening
  | looping (pcm : Clip)
  | reading (pcm : Clip)
  | closing (pcm : Clip)
  | ended
  deriving DecidableEq

inductive CaptureEvent where
  | opened | refused | throws
  /-- The condition of the loop; whether the time is over. -/
  | check (late : Bool)
  | read (bytes : Clip)
  | post
  deriving DecidableEq

def CaptureThread.step (recording : Bool) : CaptureThread → CaptureEvent → ThreadStep CaptureThread
  | .opening, .opened => { thread := .looping [], flag := recording }
  | .opening, .refused =>
      { thread := .ended
        flag := false
        posts := [.recordFailed "Could not start the microphone."] }
  | .opening, .throws | .reading _, .throws =>
      { thread := .ended
        flag := false
        posts := [.recordFailed "Recording failed."] }
  | .looping pcm, .check late =>
      if recording && !late then { thread := .reading pcm, flag := recording }
      else { thread := .closing pcm, flag := false }
  | .reading pcm, .read bytes => { thread := .looping (pcm ++ bytes), flag := recording }
  | .closing pcm, .post =>
      if pcm.isEmpty then
        { thread := .ended
          flag := false
          posts := [.recordFailed "Didn't catch that -- no audio was recorded."] }
      else
        { thread := .ended
          flag := recording
          posts := [.recorded pcm] }
  | thread, _ => { thread := thread, flag := recording }

/-! ## Hands-free listening -/

def speechAmplitudeThreshold : Nat := 900

def speechConfirmMs : Nat := 150

def trailingSilenceMs : Nat := 900

def maxDurationMs : Nat := 30000

def minCaptureMs : Nat := 400

/-- 480 samples at 16 kHz. -/
def chunkMs : Nat := 30

def preRollChunks : Nat := 10

/-- A little-endian sample, signed. -/
def sample (low high : UInt8) : Int :=
  (high.toNat * 256 + low.toNat : Nat) - if 128 ≤ high.toNat then 65536 else 0

def sumSquares : Clip → Nat
  | low :: high :: rest => (sample low high).natAbs ^ 2 + sumSquares rest
  | _ => 0

/-- The integer part of the root-mean-square. -/
def rmsAmplitude (bytes : Clip) : Nat :=
  if bytes.length / 2 = 0 then 0 else Nat.sqrt (sumSquares bytes / (bytes.length / 2))

def loud (chunk : Clip) : Bool := decide (speechAmplitudeThreshold ≤ rmsAmplitude chunk)

/-- `listenLoop`: before the loop, and in it, with no utterance or with one; the flag says that the
thread is past the condition of the loop. -/
inductive ListenThread where
  | opening
  | waiting (reading : Bool) (preRoll : List Clip) (aboveThresholdMs : Nat)
  | capturing (reading : Bool) (capture : Clip) (capturedMs belowThresholdMs : Nat)
  | ended
  deriving DecidableEq

inductive ListenEvent where
  | opened | refused | throws
  | check
  | read (chunk : Clip)
  deriving DecidableEq

/-- `finish`. -/
def finishUtterance (pcm : Clip) (durationMs : Nat) : PostedCallback :=
  if durationMs < minCaptureMs ∨ pcm.isEmpty then .speechRejected else .speechCaptured pcm

/-- A chunk without an utterance. -/
def hearWaiting (armed : Bool) (preRoll : List Clip) (aboveMs : Nat) (chunk : Clip) :
    ListenThread × List PostedCallback :=
  if !armed then (.waiting false [] 0, [])
  else
    let preRoll := (preRoll ++ [chunk]).drop (preRoll.length + 1 - preRollChunks)
    let aboveMs := if loud chunk then aboveMs + chunkMs else 0
    if speechConfirmMs ≤ aboveMs then
      (.capturing false preRoll.flatten (preRoll.length * chunkMs) 0, [.speechStarted])
    else (.waiting false preRoll aboveMs, [])

/-- A chunk of an utterance. -/
def hearCapturing (capture : Clip) (capturedMs belowMs : Nat) (chunk : Clip) :
    ListenThread × List PostedCallback :=
  let belowMs := if loud chunk then 0 else belowMs + chunkMs
  if trailingSilenceMs ≤ belowMs ∨ maxDurationMs ≤ capturedMs + chunkMs then
    (.waiting false [] 0, [finishUtterance (capture ++ chunk) (capturedMs + chunkMs)])
  else (.capturing false (capture ++ chunk) (capturedMs + chunkMs) belowMs, [])

/-- `read` may return nothing; a failure ends the thread, and so does the flag. -/
def ListenThread.step (running armed : Bool) : ListenThread → ListenEvent → ThreadStep ListenThread
  | .opening, .opened => { thread := .waiting false [] 0, flag := running }
  | .opening, .refused =>
      { thread := .ended
        flag := false
        posts := [.listenFailed "Could not start the microphone."] }
  | .opening, .throws | .waiting true _ _, .throws | .capturing true _ _ _, .throws =>
      { thread := .ended
        flag := false
        posts := [.listenFailed "Recording failed."] }
  | .waiting false preRoll aboveMs, .check =>
      if running then { thread := .waiting true preRoll aboveMs, flag := running }
      else { thread := .ended, flag := false }
  | .capturing false capture capturedMs belowMs, .check =>
      if running then { thread := .capturing true capture capturedMs belowMs, flag := running }
      else { thread := .ended, flag := false }
  | .waiting true preRoll aboveMs, .read chunk =>
      if chunk.isEmpty then { thread := .waiting false preRoll aboveMs, flag := running }
      else
        let (thread, posts) := hearWaiting armed preRoll aboveMs chunk
        { thread := thread, flag := running, posts := posts }
  | .capturing true capture capturedMs belowMs, .read chunk =>
      if chunk.isEmpty then
        { thread := .capturing false capture capturedMs belowMs, flag := running }
      else
        let (thread, posts) := hearCapturing capture capturedMs belowMs chunk
        { thread := thread, flag := running, posts := posts }
  | thread, _ => { thread := thread, flag := running }

/-! ## Turns -/

inductive TurnInput where
  | text (userText : String)
  | audio (clip : Clip)
  deriving DecidableEq

/-- Where the handler of a turn's result is. It compares the turn's number once, and goes on. -/
inductive TurnPhase where
  | inFlight
  | replied (userText replyText : String)
  | remembered (replyText : String)
  | spoken
  | failing (message : String)
  | finished
  deriving DecidableEq

/-- A submitted turn: its number, what was sent, and its result's handler. -/
structure VoiceTurn where
  id : Nat
  input : TurnInput
  history : List HistoryTurn
  phase : TurnPhase
  deriving DecidableEq

/-- The status, the backend's own state, the flags and the threads of the recorders, and what is
posted to the main thread. -/
structure Companion where
  status : ConversationStatus := .idle
  detail : Option String := none
  lastReply : Option String := none
  history : List HistoryTurn := []
  turnId : Nat := 0
  turns : List VoiceTurn := []
  playing : Option Nat := none
  recording : Bool := false
  captures : List CaptureThread := []
  alwaysListening : Bool := false
  running : Bool := false
  listens : List ListenThread := []
  posted : List PostedCallback := []

/-- `id == turnId`, for numbers of 32 bits. -/
def sameTurn (id turnId : Nat) : Bool := id % 2 ^ 32 == turnId % 2 ^ 32

namespace Companion

def setStatus (s : Companion) (next : ConversationStatus) (detail : Option String) : Companion :=
  { s with status := next, detail := detail }

def beginListening (s : Companion) : Companion := s.setStatus .listening none

def reportFailure (s : Companion) (message : String) : Companion := s.setStatus .idle (some message)

/-- `submit` and `submitAudio`. A request that cannot be built fails at once. -/
def submit (s : Companion) (input : TurnInput) (urlOk : Bool) : Companion :=
  let turn : VoiceTurn := {
    id := s.turnId + 1
    input := input
    history := s.history
    phase := if urlOk then .inFlight else .finished }
  let thinking := { s.setStatus .thinking none with
    turnId := s.turnId + 1
    turns := s.turns ++ [turn] }
  if urlOk then thinking
  else thinking.reportFailure "Voice backend URL is not set up correctly."

def cancel (s : Companion) : Companion :=
  { s with turnId := s.turnId + 1, recording := false, playing := none }.setStatus .idle none

/-- `start` of the push-to-talk recorder; `mic` is the message if the microphone does not open. -/
def startRecorder (s : Companion) (mic : Option String) : Companion :=
  if s.recording then s
  else
    match mic with
    | none => { s with recording := true, captures := s.captures ++ [.opening] }
    | some message => { s with posted := s.posted ++ [.recordFailed message] }

/-- The user holds the button. -/
def beginTalking (s : Companion) (mic : Option String) : Companion :=
  if s.alwaysListening then s.beginListening else s.beginListening.startRecorder mic

def finishListening (s : Companion) : Companion := { s with recording := false }

def setAlwaysListening (s : Companion) (enabled : Bool) (mic : Option String) : Companion :=
  if enabled = s.alwaysListening then s
  else if !enabled then { s with alwaysListening := false, running := false }
  else if s.running then s
  else
    match mic with
    | none => { s with
        alwaysListening := true
        running := true
        listens := s.listens ++ [.opening] }
    | some message => { s with posted := s.posted ++ [.listenFailed message] }

/-! ## Posted callbacks -/

/-- `finish` of the player, then the callback of the turn. -/
def playbackEnds (s : Companion) (id : Nat) (detail : Option String) : Companion :=
  let released := { s with playing := none }
  if sameTurn id s.turnId then released.setStatus .idle detail else released

def run (s : Companion) (urlOk : Bool) : PostedCallback → Companion
  | .recorded clip => s.submit (.audio clip) urlOk
  | .recordFailed message => s.reportFailure message
  | .speechStarted => s.beginListening
  | .speechCaptured clip => s.submit (.audio clip) urlOk
  | .speechRejected => s.cancel
  | .listenFailed message => { s with alwaysListening := false }.reportFailure message
  | .playbackFinished id => s.playbackEnds id none
  | .playbackFailed id message => s.playbackEnds id (some message)

/-- The main thread takes what was posted first. -/
def runPosted (s : Companion) (urlOk : Bool) : Companion :=
  match s.posted with
  | [] => s
  | callback :: rest => { s with posted := rest }.run urlOk callback

/-! ## Threads -/

def capture (s : Companion) (i : Nat) (event : CaptureEvent) : Companion :=
  match s.captures[i]? with
  | none => s
  | some thread =>
      let next := thread.step s.recording event
      { s with
        captures := s.captures.set i next.thread
        recording := next.flag
        posted := s.posted ++ next.posts }

/-- `isArmed`. -/
def armed (s : Companion) : Bool := s.status == .idle

def listen (s : Companion) (i : Nat) (event : ListenEvent) : Companion :=
  match s.listens[i]? with
  | none => s
  | some thread =>
      let next := thread.step s.running s.armed event
      { s with
        listens := s.listens.set i next.thread
        running := next.flag
        posted := s.posted ++ next.posts }

end Companion

/-! ## Results of turns -/

/-- What the HTTP client reports, and the next step of the handler. -/
inductive ResultEvent where
  | success (userText replyText : String)
  | failure (message : String)
  | next
  | playThrows
  deriving DecidableEq

/-- `MAX_HISTORY_TURNS`. -/
def maxHistoryTurns : Nat := 8

def remember (history : List HistoryTurn) (userText replyText : String) : List HistoryTurn :=
  let longer := history ++ [⟨"user", userText⟩, ⟨"assistant", replyText⟩]
  longer.drop (longer.length - maxHistoryTurns)

namespace Companion

/-- The handler of turn `i` goes on to `phase`. -/
def proceed (s : Companion) (i : Nat) (phase : TurnPhase) : Companion :=
  { s with turns := s.turns.modify i fun turn => { turn with phase := phase } }

def result (s : Companion) (i : Nat) (event : ResultEvent) : Companion :=
  match s.turns[i]? with
  | none => s
  | some turn =>
      match turn.phase, event with
      | .inFlight, .success userText replyText =>
          s.proceed i (if sameTurn turn.id s.turnId then .replied userText replyText else .finished)
      | .inFlight, .failure message =>
          s.proceed i (if sameTurn turn.id s.turnId then .failing message else .finished)
      | .replied userText replyText, .next =>
          { s with history := remember s.history userText replyText }.proceed i
            (.remembered replyText)
      | .remembered replyText, .next =>
          ({ s with lastReply := some replyText }.setStatus .speaking (some replyText)).proceed i
            .spoken
      | .spoken, .next => { s with playing := some turn.id }.proceed i .finished
      | .spoken, .playThrows =>
          { s with playing := none }.proceed i
            (if sameTurn turn.id s.turnId then .failing "Leon's voice could not play back."
              else .finished)
      | .failing message, .next => (s.reportFailure message).proceed i .finished
      | _, _ => s

/-- The player reports the end of what it plays, or an error. -/
def player (s : Companion) (error : Bool) : Companion :=
  match s.playing with
  | none => s
  | some id =>
      { s with posted := s.posted ++ [if error
          then .playbackFailed id "Leon's voice could not play back."
          else .playbackFinished id] }

end Companion

/-! ## Steps -/

inductive CompanionOp where
  | submitText (userText : String) (urlOk : Bool)
  | beginTalking (mic : Option String)
  | finishListening
  | setAlwaysListening (enabled : Bool) (mic : Option String)
  | cancel
  | runPosted (urlOk : Bool)
  | capture (i : Nat) (event : CaptureEvent)
  | listen (i : Nat) (event : ListenEvent)
  | result (i : Nat) (event : ResultEvent)
  | player (error : Bool)

def CompanionOp.exec (s : Companion) : CompanionOp → Companion
  | .submitText userText urlOk => s.submit (.text userText) urlOk
  | .beginTalking mic => s.beginTalking mic
  | .finishListening => s.finishListening
  | .setAlwaysListening enabled mic => s.setAlwaysListening enabled mic
  | .cancel => s.cancel
  | .runPosted urlOk => s.runPosted urlOk
  | .capture i event => s.capture i event
  | .listen i event => s.listen i event
  | .result i event => s.result i event
  | .player error => s.player error

/-- The app from its start on: whatever the user does and in whatever order the threads go on. -/
def companion : System Companion CompanionOp where
  init s := s = {}
  allowed _ _ := True
  exec := CompanionOp.exec

instance decCompanion (s : Companion) (o : CompanionOp) : Decidable (companion.allowed s o) :=
  inferInstanceAs (Decidable True)

end HumanGate
