import Mathlib
import HumanGate.Lib.System

set_option autoImplicit false

/-! # The state of Leon

`LeonState`, `LeonStateController` and what `LeonPrefs` keeps of them, as `LeonRuntime` puts them
together. A clock is read in nanoseconds. Seconds are exact numbers here; the source computes them
in `float`, so that where sums of frame times come within a rounding of a limit, the frame at which
it ends a hold can be another one. -/

namespace HumanGate

open Lib

/-- `trim` cuts the characters up to the blank at both ends. -/
def JavaString.trim (text : List Char) : List Char :=
  let blank := fun c : Char => decide (c ≤ ' ')
  ((text.dropWhile blank).reverse.dropWhile blank).reverse

inductive LeonState where
  | idle
  | listening
  | thinking
  | speaking
  | happy
  | serious
  | sleepy
  | attention
  | minimised
  deriving DecidableEq, Repr

namespace LeonState

def values : List LeonState :=
  [idle, listening, thinking, speaking, happy, serious, sleepy, attention, minimised]

def name : LeonState → String
  | idle => "IDLE"
  | listening => "LISTENING"
  | thinking => "THINKING"
  | speaking => "SPEAKING"
  | happy => "HAPPY"
  | serious => "SERIOUS"
  | sleepy => "SLEEPY"
  | attention => "ATTENTION"
  | minimised => "MINIMISED"

def isTransient (s : LeonState) : Bool := decide (s = .attention)

/-- The capital that a character counts for where case is ignored. There are four characters outside
ASCII that count for one of ASCII: the two that are an `I` in Turkish, the long s and the Kelvin
sign. -/
def foldCase : Char → Char
  | '\u0130' | '\u0131' => 'I'
  | '\u017f' => 'S'
  | '\u212a' => 'K'
  | c => c.toUpper

/-- `equalsIgnoreCase` with a name of ASCII letters. -/
def equalsIgnoreCase (a b : List Char) : Bool := decide (a.map foldCase = b.map foldCase)

def fromName (name : Option String) (fallback : LeonState) : LeonState :=
  match name with
  | none => fallback
  | some name =>
      (values.find? fun s => equalsIgnoreCase s.name.toList (JavaString.trim name.toList)).getD
        fallback

end LeonState

/-! ## The controller -/

structure LeonStateController where
  state : LeonState
  restoreState : LeonState
  transientRemaining : ℚ
  lastTickNanos : ℤ

namespace LeonStateController

def attentionHoldSeconds : ℚ := 22 / 10

def initial : LeonStateController := ⟨.idle, .idle, 0, 0⟩

def isMinimised (c : LeonStateController) : Bool := decide (c.state = .minimised)

def request (c : LeonStateController) (next : LeonState) : LeonStateController :=
  if next = c.state then c
  else
    { c with
      restoreState :=
        if next.isTransient || decide (next = .minimised) then
          if !c.state.isTransient && !decide (c.state = .minimised) then c.state
          else c.restoreState
        else next
      transientRemaining := if next.isTransient then attentionHoldSeconds else 0
      state := next }

def restore (c : LeonStateController) : LeonStateController :=
  c.request
    (if c.restoreState = .minimised ∨ c.restoreState.isTransient then .idle else c.restoreState)

def toggleMinimised (c : LeonStateController) : LeonStateController :=
  if c.isMinimised then c.restore else c.request .minimised

def poke (c : LeonStateController) : LeonStateController :=
  if c.isMinimised then { c with transientRemaining := attentionHoldSeconds }
  else c.request .attention

/-- `update`, in exact arithmetic. -/
def update (c : LeonStateController) (dtSeconds : ℚ) : LeonStateController :=
  if c.transientRemaining ≤ 0 then c
  else
    let left := c.transientRemaining - dtSeconds
    if 0 < left then { c with transientRemaining := left }
    else
      let c := { c with transientRemaining := 0 }
      if c.state.isTransient then
        c.request (if c.restoreState.isTransient then .idle else c.restoreState)
      else c

/-- The clock reads `now`. The time since the last frame is exact. -/
def tick (c : LeonStateController) (now : ℤ) : LeonStateController :=
  if c.lastTickNanos = 0 then { c with lastTickNanos := now }
  else
    let dt : ℚ := (now - c.lastTickNanos : ℤ) / 1000000000
    { c with lastTickNanos := now }.update (min dt (1 / 2))

def adoptPersisted (c : LeonStateController) (persisted persistedRestore : LeonState) :
    LeonStateController :=
  let c :=
    if !persistedRestore.isTransient && !decide (persistedRestore = .minimised) then
      { c with restoreState := persistedRestore }
    else c
  if persisted.isTransient then c
  else { c with state := persisted, transientRemaining := 0 }

end LeonStateController

/-! ## What is kept -/

structure LeonPrefs where
  state : Option String
  restoreState : Option String
  minimised : Bool

def LeonPrefs.readState (p : LeonPrefs) : LeonState :=
  LeonState.fromName (some (p.state.getD LeonState.idle.name)) .idle

def LeonPrefs.readRestoreState (p : LeonPrefs) : LeonState :=
  LeonState.fromName (some (p.restoreState.getD LeonState.idle.name)) .idle

def LeonPrefs.saveState (p : LeonPrefs) (state restoreState : LeonState) : LeonPrefs :=
  if state.isTransient then p
  else ⟨some state.name, some restoreState.name, decide (state = .minimised)⟩

/-- The process: its controller, and what is stored. -/
structure LeonRuntime where
  states : LeonStateController
  prefs : LeonPrefs

namespace LeonRuntime

/-- A process is started. -/
def start (prefs : LeonPrefs) : LeonRuntime :=
  ⟨LeonStateController.initial.adoptPersisted prefs.readState prefs.readRestoreState, prefs⟩

/-- The listener stores a state that the controller changes to. -/
def become (r : LeonRuntime) (states : LeonStateController) : LeonRuntime where
  states := states
  prefs :=
    if states.state = r.states.state then r.prefs
    else r.prefs.saveState states.state states.restoreState

end LeonRuntime

inductive LeonAction where
  | request (next : LeonState)
  | toggleMinimised
  | restore
  | poke
  | tick (now : ℤ)
  /-- The overlay is destroyed. -/
  | save
  /-- The process is killed, and started again. -/
  | restart

def LeonAction.exec (r : LeonRuntime) : LeonAction → LeonRuntime
  | .request next => r.become (r.states.request next)
  | .toggleMinimised => r.become r.states.toggleMinimised
  | .restore => r.become r.states.restore
  | .poke => r.become r.states.poke
  | .tick now => r.become (r.states.tick now)
  | .save => { r with prefs := r.prefs.saveState r.states.state r.states.restoreState }
  | .restart => LeonRuntime.start r.prefs

/-- Leon, from the first start on; the clock does not go back while the process runs. -/
def leon : System LeonRuntime LeonAction where
  init r := r = LeonRuntime.start ⟨none, none, false⟩
  allowed r
    | .tick now => r.states.lastTickNanos = 0 ∨ r.states.lastTickNanos ≤ now
    | _ => True
  exec := LeonAction.exec

end HumanGate
