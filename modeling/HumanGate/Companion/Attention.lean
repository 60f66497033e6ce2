import Mathlib
import HumanGate.Model.LeonState

set_option autoImplicit false

/-! # What Leon is doing

The state that is gone back to is never a passing one. A tap holds Leon's attention for a fixed time
by the clock, and a state that is minimised or killed comes back as it was. -/

namespace HumanGate

open Lib LeonStateController

/-! ## The names of the states -/

theorem LeonState.fromName_name (s fallback : LeonState) : fromName (some s.name) fallback = s := by
  cases s <;> rfl

theorem LeonPrefs.saveState_read (p : LeonPrefs) {state : LeonState} (restoreState : LeonState)
    (h : state ≠ .attention) :
    (p.saveState state restoreState).readState = state ∧
      (p.saveState state restoreState).readRestoreState = restoreState := by
  have hsave : p.saveState state restoreState =
      ⟨some state.name, some restoreState.name, decide (state = .minimised)⟩ := by
    unfold saveState LeonState.isTransient
    simp [h]
  rw [hsave]
  exact ⟨LeonState.fromName_name state .idle, LeonState.fromName_name restoreState .idle⟩

theorem LeonPrefs.saveState_attention (p : LeonPrefs) (restoreState : LeonState) :
    p.saveState .attention restoreState = p := rfl

/-! ## The controller -/

/-- A state that Leon can be brought back to. -/
def LeonState.Plain (s : LeonState) : Prop :=
  s ≠ .attention ∧ s ≠ .minimised

/-- The state that is gone back to is plain, and is the current one when that is plain. -/
structure LeonStateController.Sound (c : LeonStateController) : Prop where
  restore : c.restoreState.Plain
  plain : c.state.Plain → c.restoreState = c.state ∧ c.transientRemaining = 0
  attention : c.state = .attention → 0 < c.transientRemaining
  timer : 0 ≤ c.transientRemaining ∧ c.transientRemaining ≤ attentionHoldSeconds

/-- The controller goes on: a passing state keeps the one that is gone back to. -/
structure LeonStateController.Becomes (c c' : LeonStateController) : Prop where
  sound : c'.Sound
  kept : c'.state = c.state ∨ c'.state = .attention ∨ c'.state = .minimised →
    c'.restoreState = c.restoreState

section Controller

variable {c : LeonStateController}

theorem attentionHoldSeconds_pos : 0 < attentionHoldSeconds := by
  unfold attentionHoldSeconds
  norm_num

theorem LeonStateController.Sound.refl (h : c.Sound) : c.Becomes c :=
  ⟨h, fun _ => rfl⟩

theorem request_self (c : LeonStateController) : c.request c.state = c :=
  if_pos rfl

/-- A plain state is taken as it is. -/
theorem request_plain {next : LeonState} (hnext : next.Plain) (h : next ≠ c.state) :
    c.request next = { c with restoreState := next, transientRemaining := 0, state := next } := by
  unfold request LeonState.isTransient
  rw [if_neg h]
  simp [hnext.1, hnext.2]

/-- A passing state keeps what is gone back to. -/
theorem request_passing {next : LeonState} (hc : c.Sound)
    (hnext : next = .attention ∨ next = .minimised) (h : next ≠ c.state) :
    c.request next = { c with
      transientRemaining := if next.isTransient then attentionHoldSeconds else 0
      state := next } := by
  unfold request
  rw [if_neg h]
  have hpassing : (next.isTransient || decide (next = .minimised)) = true := by
    rcases hnext with rfl | rfl <;> rfl
  rw [if_pos hpassing]
  split
  · rename_i hplain
    have hstate : c.state.Plain := by
      unfold LeonState.isTransient at hplain
      simpa [LeonState.Plain] using hplain
    rw [(hc.plain hstate).1]
  · rfl

theorem request_becomes (hc : c.Sound) (next : LeonState) : c.Becomes (c.request next) := by
  by_cases h : next = c.state
  · subst h
    rw [request_self]
    exact hc.refl
  by_cases hplain : next.Plain
  · rw [request_plain hplain h]
    refine ⟨⟨hplain, fun _ => ⟨rfl, rfl⟩, fun hatt => absurd hatt hplain.1, le_refl _, ?_⟩, ?_⟩
    · exact attentionHoldSeconds_pos.le
    · rintro (hsame | hatt | hmin)
      · exact absurd hsame h
      · exact absurd hatt hplain.1
      · exact absurd hmin hplain.2
  · have hnext : next = .attention ∨ next = .minimised := by
      unfold LeonState.Plain at hplain
      tauto
    rw [request_passing hc hnext h]
    have hpos := attentionHoldSeconds_pos
    rcases hnext with rfl | rfl
    · exact ⟨⟨hc.restore, fun hp => absurd rfl hp.1, fun _ => hpos, hpos.le, le_refl _⟩,
        fun _ => rfl⟩
    · exact ⟨⟨hc.restore, fun hp => absurd rfl hp.2, fun hatt => (nomatch hatt), le_refl _,
        hpos.le⟩,
        fun _ => rfl⟩

/-- The state that is gone back to is requested as it is. -/
theorem restore_eq (hc : c.Sound) : c.restore = c.request c.restoreState := by
  unfold restore LeonState.isTransient
  simp [hc.restore.1, hc.restore.2]

theorem restore_becomes (hc : c.Sound) : c.Becomes c.restore := by
  rw [restore_eq hc]
  exact request_becomes hc _

theorem toggleMinimised_becomes (hc : c.Sound) : c.Becomes c.toggleMinimised := by
  unfold toggleMinimised
  split
  · exact restore_becomes hc
  · exact request_becomes hc _

theorem poke_becomes (hc : c.Sound) : c.Becomes c.poke := by
  unfold poke
  split
  · rename_i hmin
    have hstate : c.state = .minimised := of_decide_eq_true hmin
    refine ⟨⟨hc.restore, fun hp => absurd hstate hp.2, fun _ => attentionHoldSeconds_pos, ?_⟩,
      fun _ => rfl⟩
    exact ⟨attentionHoldSeconds_pos.le, le_refl _⟩
  · exact request_becomes hc _

/-- Time passes, but the timer does not run out. -/
theorem update_runs {dt : ℚ} (h : dt < c.transientRemaining) (hdt : 0 ≤ dt) :
    c.update dt = { c with transientRemaining := c.transientRemaining - dt } := by
  unfold update
  rw [if_neg (by linarith), if_pos (by linarith)]

/-- The timer runs out, and with it the attention. -/
theorem update_ends {dt : ℚ} (hc : c.Sound) (h : c.transientRemaining ≤ dt)
    (hstate : c.state = .attention) :
    c.update dt = { c with transientRemaining := 0, state := c.restoreState } := by
  have hpos := hc.attention hstate
  have hne : c.restoreState ≠ c.state := by
    rw [hstate]
    exact hc.restore.1
  unfold update
  rw [if_neg (by linarith)]
  simp only
  rw [if_neg (by linarith)]
  unfold LeonState.isTransient
  simp only [hstate, decide_true, if_true, hc.restore.1, decide_false, Bool.false_eq_true, if_false]
  rw [request_plain hc.restore (by simpa [hstate] using hc.restore.1)]

theorem update_becomes {dt : ℚ} (hc : c.Sound) (hdt : 0 ≤ dt) : c.Becomes (c.update dt) := by
  by_cases hidle : c.transientRemaining ≤ 0
  · have hsame : c.update dt = c := if_pos hidle
    rw [hsame]
    exact hc.refl
  by_cases hruns : dt < c.transientRemaining
  · rw [update_runs hruns hdt]
    have hplain : ¬ c.state.Plain := fun hp => by
      have hzero := (hc.plain hp).2
      linarith
    refine ⟨⟨hc.restore, fun hp => absurd hp hplain, fun _ => ?_, ?_, ?_⟩, fun _ => rfl⟩
    · simp only
      linarith
    · simp only
      linarith
    · have hmax := hc.timer.2
      simp only
      linarith
  by_cases hatt : c.state = .attention
  · rw [update_ends hc (not_lt.mp hruns) hatt]
    refine ⟨⟨hc.restore, fun _ => ⟨rfl, rfl⟩, fun h => absurd h hc.restore.1, le_refl _, ?_⟩,
      fun _ => rfl⟩
    exact attentionHoldSeconds_pos.le
  · -- Leon is minimised, and the nod is over
    have hends : c.update dt = { c with transientRemaining := 0 } := by
      unfold update
      rw [if_neg hidle]
      simp only
      rw [if_neg (by linarith)]
      simp [LeonState.isTransient, hatt]
    rw [hends]
    refine ⟨⟨hc.restore, fun hp => ⟨(hc.plain hp).1, rfl⟩, fun h => absurd h hatt, le_refl _, ?_⟩,
      fun _ => rfl⟩
    exact attentionHoldSeconds_pos.le

theorem tick_becomes {now : ℤ} (hc : c.Sound)
    (hnow : c.lastTickNanos = 0 ∨ c.lastTickNanos ≤ now) : c.Becomes (c.tick now) := by
  have hclock : Sound { c with lastTickNanos := now } :=
    ⟨hc.restore, hc.plain, hc.attention, hc.timer⟩
  unfold tick
  split
  · exact ⟨hclock, fun _ => rfl⟩
  · rename_i hstarted
    have hle := hnow.resolve_left hstarted
    have hdt : 0 ≤ min (((now - c.lastTickNanos : ℤ) : ℚ) / 1000000000) (1 / 2) := by
      refine le_min (div_nonneg ?_ (by norm_num)) (by norm_num)
      exact Int.cast_nonneg (by omega)
    have h := update_becomes hclock hdt
    exact ⟨h.sound, h.kept⟩

end Controller

/-! ## Every run -/

/-- What is stored is the last state that was not passing, and what is gone back to. -/
structure LeonRuntime.Kept (r : LeonRuntime) : Prop where
  sound : r.states.Sound
  lasting : r.prefs.readState ≠ .attention
  state : r.states.state ≠ .attention → r.prefs.readState = r.states.state
  restore : r.prefs.readRestoreState = r.states.restoreState
  plain : r.prefs.readState ≠ .minimised → r.prefs.readState = r.states.restoreState

namespace LeonRuntime.Kept

variable {r : LeonRuntime}

theorem become (h : r.Kept) {c : LeonStateController} (hc : r.states.Becomes c) :
    (r.become c).Kept := by
  unfold LeonRuntime.become
  by_cases hsame : c.state = r.states.state
  · -- the listener is not called
    have hrestore := hc.kept (.inl hsame)
    simp only [if_pos hsame]
    refine ⟨hc.sound, h.lasting, fun hatt => ?_, ?_, fun hmin => ?_⟩
    · rw [hsame] at hatt ⊢
      exact h.state hatt
    · rw [hrestore]
      exact h.restore
    · rw [hrestore]
      exact h.plain hmin
  simp only [if_neg hsame]
  by_cases hatt : c.state = .attention
  · have hrestore := hc.kept (.inr (.inl hatt))
    rw [hatt, LeonPrefs.saveState_attention]
    refine ⟨hc.sound, h.lasting, fun hne => absurd hatt hne, ?_, fun hmin => ?_⟩
    · rw [hrestore]
      exact h.restore
    · rw [hrestore]
      exact h.plain hmin
  · obtain ⟨hstate, hrestore⟩ := r.prefs.saveState_read c.restoreState hatt
    refine ⟨hc.sound, ?_, fun _ => hstate, hrestore, fun hmin => ?_⟩
    · rwa [hstate]
    · rw [hstate] at hmin ⊢
      exact ((hc.sound.plain ⟨hatt, hmin⟩).1).symm

theorem save (h : r.Kept) : (LeonAction.exec r .save).Kept := by
  by_cases hatt : r.states.state = .attention
  · have hsave : LeonAction.exec r .save = r := by
      unfold LeonAction.exec
      simp only [hatt, LeonPrefs.saveState_attention]
    rwa [hsave]
  · obtain ⟨hstate, hrestore⟩ := r.prefs.saveState_read r.states.restoreState hatt
    refine ⟨h.sound, ?_, fun _ => hstate, hrestore, fun hmin => ?_⟩
    · exact ne_of_eq_of_ne hstate hatt
    · have hplain : r.states.state ≠ .minimised := fun heq => hmin (hstate.trans heq)
      exact hstate.trans (h.sound.plain ⟨hatt, hplain⟩).1.symm

/-- What a killed process comes back with. -/
theorem start_eq (h : r.Kept) : LeonRuntime.start r.prefs =
    ⟨⟨r.prefs.readState, r.states.restoreState, 0, 0⟩, r.prefs⟩ := by
  unfold LeonRuntime.start adoptPersisted LeonState.isTransient initial
  have hrestore := h.sound.restore
  simp [h.restore, hrestore.1, hrestore.2, h.lasting]

theorem restart (h : r.Kept) : (LeonRuntime.start r.prefs).Kept := by
  rw [h.start_eq]
  refine ⟨⟨h.sound.restore, fun hp => ⟨(h.plain hp.2).symm, rfl⟩, fun hatt => absurd hatt h.lasting,
    le_refl _, attentionHoldSeconds_pos.le⟩, h.lasting, fun _ => rfl, h.restore, h.plain⟩

theorem exec (h : r.Kept) {a : LeonAction} (ha : leon.allowed r a) : (a.exec r).Kept := by
  cases a with
  | request next => exact h.become (request_becomes h.sound next)
  | toggleMinimised => exact h.become (toggleMinimised_becomes h.sound)
  | restore => exact h.become (restore_becomes h.sound)
  | poke => exact h.become (poke_becomes h.sound)
  | tick now => exact h.become (tick_becomes h.sound ha)
  | save => exact h.save
  | restart => exact h.restart

theorem reachable (h : leon.Reachable r) : r.Kept := by
  refine System.Reachable.invariant (S := leon) ?_ (fun _ _ hi ha => hi.exec ha) h
  rintro r rfl
  refine ⟨⟨⟨by decide, by decide⟩, fun _ => ⟨rfl, rfl⟩, fun h => (nomatch h), le_refl _,
    attentionHoldSeconds_pos.le⟩, by decide, fun _ => rfl, rfl, fun _ => rfl⟩

end LeonRuntime.Kept

/-! ## Looking at Leon -/

/-- What happens while Leon is only looked at: a surface draws a frame, or Leon is tapped. -/
inductive Glance where
  | poke
  | frame (now : ℤ)

def Glance.action : Glance → LeonAction
  | .poke => .poke
  | .frame now => .tick now

def watch (r : LeonRuntime) (glances : List Glance) : LeonRuntime :=
  glances.foldl (fun r g => g.action.exec r) r

/-- The clock goes on from `last`, and never shows the value of a clock not read yet. -/
def Later (last : ℤ) : List Glance → Prop
  | [] => True
  | .poke :: rest => Later last rest
  | .frame now :: rest => last ≤ now ∧ now ≠ 0 ∧ Later now rest

/-- The last frame. -/
def lastFrame (last : ℤ) : List Glance → ℤ
  | [] => last
  | .poke :: rest => lastFrame last rest
  | .frame now :: rest => lastFrame now rest

/-- The time between two frames, as far as it counts. -/
def gap (last now : ℤ) : ℚ :=
  min (((now - last : ℤ) : ℚ) / 1000000000) (1 / 2)

/-- The time that counts, from the frame at `last` on. -/
def elapsed (last : ℤ) : List Glance → ℚ
  | [] => 0
  | .poke :: rest => elapsed last rest
  | .frame now :: rest => gap last now + elapsed now rest

/-- The screen stays on: no two frames are far apart. -/
def Steady (last : ℤ) : List Glance → Prop
  | [] => True
  | .poke :: rest => Steady last rest
  | .frame now :: rest => now - last ≤ 500000000 ∧ Steady now rest

section Watch

variable {last : ℤ} {glances : List Glance}

theorem gap_nonneg {now : ℤ} (h : last ≤ now) : 0 ≤ gap last now := by
  unfold gap
  refine le_min (div_nonneg ?_ (by norm_num)) (by norm_num)
  exact Int.cast_nonneg (by omega)

theorem elapsed_nonneg (h : Later last glances) : 0 ≤ elapsed last glances := by
  induction glances generalizing last with
  | nil => exact le_refl _
  | cons g rest ih =>
      cases g with
      | poke => exact ih h
      | frame now => exact add_nonneg (gap_nonneg h.1) (ih h.2.2)

theorem elapsed_concat (now : ℤ) :
    elapsed last (glances ++ [.frame now]) =
      elapsed last glances + gap (lastFrame last glances) now := by
  induction glances generalizing last with
  | nil =>
      change gap last now + 0 = 0 + gap last now
      rw [add_zero, zero_add]
  | cons g rest ih =>
      cases g with
      | poke => exact ih
      | frame then_ =>
          change gap last then_ + elapsed then_ (rest ++ [.frame now]) = _
          rw [ih, ← add_assoc]
          rfl

theorem Later.of_concat {now : ℤ} (h : Later last (glances ++ [.frame now])) :
    Later last glances ∧ lastFrame last glances ≤ now := by
  induction glances generalizing last with
  | nil => exact ⟨trivial, h.1⟩
  | cons g rest ih =>
      cases g with
      | poke => exact ih h
      | frame then_ =>
          obtain ⟨hle, hne, hrest⟩ := h
          obtain ⟨hlater, hlast⟩ := ih hrest
          exact ⟨⟨hle, hne, hlater⟩, hlast⟩

theorem lastFrame_ne_zero (hlast : last ≠ 0) (h : Later last glances) :
    lastFrame last glances ≠ 0 := by
  induction glances generalizing last with
  | nil => exact hlast
  | cons g rest ih =>
      cases g with
      | poke => exact ih hlast h
      | frame now => exact ih h.2.1 h.2.2

/-- However many surfaces draw frames, what counts is the time between the first and the last. -/
theorem elapsed_steady (h : Steady last glances) :
    elapsed last glances = ((lastFrame last glances - last : ℤ) : ℚ) / 1000000000 := by
  induction glances generalizing last with
  | nil => simp [elapsed, lastFrame]
  | cons g rest ih =>
      cases g with
      | poke => exact ih h
      | frame now =>
          obtain ⟨hshort, hrest⟩ := h
          have hgap : gap last now = ((now - last : ℤ) : ℚ) / 1000000000 := by
            have hcast : ((now - last : ℤ) : ℚ) ≤ 500000000 := by exact_mod_cast hshort
            unfold gap
            exact min_eq_left (by linarith)
          change gap last now + elapsed now rest = ((lastFrame now rest - last : ℤ) : ℚ) / _
          rw [hgap, ih hrest]
          push_cast
          ring

/-- Leon's attention is held, with `left` to go and `s` to go back to. -/
structure Attentive (r : LeonRuntime) (s : LeonState) (left : ℚ) (last : ℤ) : Prop where
  sound : r.states.Sound
  state : r.states.state = .attention
  restore : r.states.restoreState = s
  left : r.states.transientRemaining = left
  clock : r.states.lastTickNanos = last

theorem Attentive.poke {r : LeonRuntime} {s : LeonState} {left : ℚ}
    (h : Attentive r s left last) : LeonAction.exec r .poke = r := by
  have hpoke : r.states.poke = r.states := by
    unfold LeonStateController.poke isMinimised
    rw [h.state, if_neg (by decide), ← h.state, request_self]
  unfold LeonAction.exec LeonRuntime.become
  simp only [hpoke, if_true]

theorem Attentive.tick {r : LeonRuntime} {s : LeonState} {left : ℚ} {now : ℤ}
    (h : Attentive r s left last) (hlast : last ≠ 0) (hnow : last ≤ now)
    (hleft : gap last now < left) :
    Attentive (LeonAction.exec r (.tick now)) s (left - gap last now) now := by
  have hupdate : LeonStateController.update { r.states with lastTickNanos := now } (gap last now) =
      { r.states with
        lastTickNanos := now, transientRemaining := r.states.transientRemaining - gap last now } :=
    update_runs (by rw [h.left]; exact hleft) (gap_nonneg hnow)
  have htick : r.states.tick now =
      { r.states with lastTickNanos := now, transientRemaining := left - gap last now } := by
    unfold LeonStateController.tick
    rw [if_neg (by rw [h.clock]; exact hlast), h.clock]
    refine hupdate.trans ?_
    rw [h.left]
  have hsound : (r.states.tick now).Sound := (tick_becomes h.sound (.inr (by rwa [h.clock]))).sound
  change Attentive (r.become (r.states.tick now)) s _ now
  refine ⟨hsound, ?_, ?_, ?_, ?_⟩ <;> unfold LeonRuntime.become <;> rw [htick]
  · exact h.state
  · exact h.restore

/-- While time is left, attention is held, and taps change nothing. -/
theorem Attentive.watch {r : LeonRuntime} {s : LeonState} {left : ℚ}
    (h : Attentive r s left last) (hlast : last ≠ 0) (hlater : Later last glances)
    (hleft : elapsed last glances < left) :
    Attentive (watch r glances) s (left - elapsed last glances) (lastFrame last glances) := by
  induction glances generalizing r left last with
  | nil =>
      change Attentive r s (left - 0) last
      rwa [sub_zero]
  | cons g rest ih =>
      cases g with
      | poke =>
          change Attentive (HumanGate.watch (LeonAction.exec r .poke) rest) s _ _
          rw [h.poke]
          exact ih h hlast hlater hleft
      | frame now =>
          obtain ⟨hle, hne, hrest⟩ := hlater
          have hsum : gap last now + elapsed now rest < left := hleft
          have hpos := elapsed_nonneg hrest
          have hnext := ih (h.tick hlast hle (by linarith)) hne hrest (by linarith)
          change Attentive (HumanGate.watch (LeonAction.exec r (.tick now)) rest) s
            (left - (gap last now + elapsed now rest)) (lastFrame now rest)
          rwa [← sub_sub]

/-- The frame at which the time is over. -/
theorem Attentive.ends {r : LeonRuntime} {s : LeonState} {left : ℚ} {now : ℤ}
    (h : Attentive r s left last) (hlast : last ≠ 0) (hleft : left ≤ gap last now) :
    (LeonAction.exec r (.tick now)).states =
      { r.states with state := s, transientRemaining := 0, lastTickNanos := now } := by
  have hclock : LeonStateController.Sound { r.states with lastTickNanos := now } :=
    ⟨h.sound.restore, h.sound.plain, h.sound.attention, h.sound.timer⟩
  have hupdate : LeonStateController.update { r.states with lastTickNanos := now } (gap last now) =
      { r.states with
        lastTickNanos := now, transientRemaining := 0, state := r.states.restoreState } :=
    update_ends hclock (by rw [h.left]; exact hleft) h.state
  change r.states.tick now = _
  unfold LeonStateController.tick
  rw [if_neg (by rw [h.clock]; exact hlast), h.clock]
  refine hupdate.trans ?_
  rw [h.restore]

theorem watch_concat (r : LeonRuntime) (glances : List Glance) (g : Glance) :
    watch r (glances ++ [g]) = g.action.exec (watch r glances) :=
  List.foldl_concat ..

end Watch

/-- **A tap holds Leon's attention** for `attentionHoldSeconds` of the clock, in exact arithmetic,
however many surfaces draw frames and however often Leon is tapped again, and then Leon goes on with
what was interrupted. A gap without frames counts for half a second at most. -/
theorem attention_holds {r : LeonRuntime} (h : leon.Reachable r) (hplain : r.states.state.Plain)
    (hclock : r.states.lastTickNanos ≠ 0) {glances : List Glance}
    (hlater : Later r.states.lastTickNanos glances) :
    (elapsed r.states.lastTickNanos glances < attentionHoldSeconds →
      (watch (LeonAction.exec r .poke) glances).states.state = .attention ∧
      (watch (LeonAction.exec r .poke) glances).states.restoreState = r.states.state) ∧
    (∀ before now, glances = before ++ [.frame now] →
      elapsed r.states.lastTickNanos before < attentionHoldSeconds →
      attentionHoldSeconds ≤ elapsed r.states.lastTickNanos glances →
        (watch (LeonAction.exec r .poke) glances).states.state = r.states.state ∧
        (watch (LeonAction.exec r .poke) glances).states.restoreState = r.states.state) ∧
    (Steady r.states.lastTickNanos glances → elapsed r.states.lastTickNanos glances =
      ((lastFrame r.states.lastTickNanos glances - r.states.lastTickNanos : ℤ) : ℚ) /
        1000000000) := by
  have hkept := LeonRuntime.Kept.reachable h
  -- the tap starts the hold
  have hpoked : Attentive (LeonAction.exec r .poke) r.states.state attentionHoldSeconds
      r.states.lastTickNanos := by
    have hmin : r.states.isMinimised = false := decide_eq_false hplain.2
    have hpoke : (LeonAction.exec r .poke).states = { r.states with
        transientRemaining := attentionHoldSeconds, state := .attention } := by
      change r.states.poke = _
      unfold LeonStateController.poke
      rw [hmin]
      exact request_passing hkept.sound (.inl rfl) hplain.1.symm
    refine ⟨(poke_becomes hkept.sound).sound, ?_, ?_, ?_, ?_⟩ <;> rw [hpoke]
    exact (hkept.sound.plain hplain).1
  refine ⟨fun hleft => ?_, ?_, elapsed_steady⟩
  · -- while time is left a further tap does nothing, and a frame counts down
    have hheld := hpoked.watch hclock hlater hleft
    exact ⟨hheld.state, hheld.restore⟩
  · -- the first frame for which no time is left
    rintro before now rfl hbefore hover
    obtain ⟨hlater', hle⟩ := hlater.of_concat
    have hheld := hpoked.watch hclock hlater' hbefore
    rw [elapsed_concat] at hover
    rw [watch_concat]
    have hover' : attentionHoldSeconds - elapsed r.states.lastTickNanos before ≤
        gap (lastFrame r.states.lastTickNanos before) now := by linarith
    have hends := hheld.ends (lastFrame_ne_zero hclock hlater') hover'
    change (LeonAction.exec _ (.tick now)).states.state = _ ∧
      (LeonAction.exec _ (.tick now)).states.restoreState = _
    rw [hends]
    exact ⟨rfl, hheld.restore⟩

/-- Leon is listening, and a first frame is drawn. -/
def listeningLeon : LeonRuntime :=
  [.request .listening, .tick 5].foldl LeonAction.exec (LeonRuntime.start ⟨none, none, false⟩)

theorem listeningLeon_reachable : leon.Reachable listeningLeon := by
  refine System.Reachable.of_legal (S := leon) [.request .listening, .tick 5] (.init rfl) ?_
  exact ⟨trivial, .inl rfl, trivial⟩

/-- A tap, and the frames of two surfaces. -/
theorem listening_holds :
    (watch (LeonAction.exec listeningLeon .poke) [.frame 400000005, .frame 400000006,
      .poke]).states.state = .attention ∧
    (watch (LeonAction.exec listeningLeon .poke) [.frame 400000005, .frame 400000006,
      .poke]).states.restoreState = .listening := by
  refine (attention_holds listeningLeon_reachable ⟨by decide, by decide⟩ (by decide) ?_).1 ?_
  · exact ⟨by decide, by decide, by decide, by decide, trivial⟩
  · have hclock : listeningLeon.states.lastTickNanos = 5 := rfl
    norm_num [elapsed, gap, attentionHoldSeconds, hclock]

/-! ## Minimised, and killed -/

/-- Leon is minimised, with `s` to go back to. -/
structure Folded (r : LeonRuntime) (s : LeonState) : Prop where
  state : r.states.state = .minimised
  restore : r.states.restoreState = s

theorem Folded.update {c : LeonStateController} (h : c.state = .minimised) (dt : ℚ) :
    (c.update dt).state = .minimised ∧ (c.update dt).restoreState = c.restoreState := by
  unfold LeonStateController.update LeonState.isTransient
  split
  · exact ⟨h, rfl⟩
  · simp only [h]
    split <;> simp

/-- A glance at a minimised Leon is acknowledged in place. -/
theorem Folded.glance {r : LeonRuntime} {s : LeonState} (h : Folded r s) (g : Glance) :
    Folded (g.action.exec r) s := by
  cases g with
  | poke =>
      have hpoke : r.states.poke = { r.states with transientRemaining := attentionHoldSeconds } :=
        if_pos (decide_eq_true h.state)
      change Folded (r.become r.states.poke) s
      rw [hpoke]
      exact ⟨h.state, h.restore⟩
  | frame now =>
      have htick : (r.states.tick now).state = .minimised ∧
          (r.states.tick now).restoreState = r.states.restoreState := by
        unfold LeonStateController.tick
        split
        · exact ⟨h.state, rfl⟩
        · have hfold : ({ r.states with lastTickNanos := now } : LeonStateController).state =
              .minimised := h.state
          exact Folded.update hfold _
      exact ⟨htick.1, htick.2.trans h.restore⟩

theorem Folded.watch {r : LeonRuntime} {s : LeonState} (h : Folded r s) (glances : List Glance) :
    Folded (watch r glances) s := by
  induction glances generalizing r with
  | nil => exact h
  | cons g rest ih => exact ih (h.glance g)

theorem Folded.unfold {r : LeonRuntime} {s : LeonState} (h : Folded r s) (hs : s.Plain) :
    (LeonAction.exec r .toggleMinimised).states.state = s := by
  have htoggle : r.states.toggleMinimised = r.states.restore := if_pos (decide_eq_true h.state)
  have hrestore : r.states.restore = r.states.request s := by
    unfold LeonStateController.restore LeonState.isTransient
    simp [h.restore, hs.1, hs.2]
  change r.states.toggleMinimised.state = s
  rw [htoggle, hrestore, request_plain hs (by rw [h.state]; exact hs.2)]

/-- **Leon comes back as he was.** Minimised and expanded again, whatever frames and taps there are
in between, he is in the plain state that he was in or that a tap had interrupted. A process that is
killed starts again in the same state, where that is not passing, and with the same one to go back
to, which is always plain. -/
theorem leon_remembers {r : LeonRuntime} (h : leon.Reachable r) :
    r.states.restoreState.Plain ∧
    (r.states.state.Plain → r.states.restoreState = r.states.state) ∧
    (r.states.state ≠ .minimised → ∀ glances,
      (LeonAction.exec (watch (LeonAction.exec r .toggleMinimised) glances)
        .toggleMinimised).states.state = r.states.restoreState) ∧
    (LeonAction.exec r .restart).states.state ≠ .attention ∧
    (r.states.state ≠ .attention →
      (LeonAction.exec r .restart).states.state = r.states.state) ∧
    (LeonAction.exec r .restart).states.restoreState = r.states.restoreState := by
  have hkept := LeonRuntime.Kept.reachable h
  -- a new process starts from what was saved
  have hrestart : (LeonAction.exec r .restart).states =
      ⟨r.prefs.readState, r.states.restoreState, 0, 0⟩ :=
    congrArg LeonRuntime.states hkept.start_eq
  refine ⟨hkept.sound.restore, fun hp => (hkept.sound.plain hp).1, fun hmin glances => ?_, ?_, ?_,
    ?_⟩
  · have hfold : Folded (LeonAction.exec r .toggleMinimised) r.states.restoreState := by
      have htoggle : r.states.toggleMinimised = { r.states with
          transientRemaining := 0, state := .minimised } := by
        unfold LeonStateController.toggleMinimised isMinimised
        rw [if_neg (by simpa using hmin)]
        exact request_passing hkept.sound (.inr rfl) (Ne.symm hmin)
      have hstates : (LeonAction.exec r .toggleMinimised).states = { r.states with
          transientRemaining := 0, state := .minimised } := htoggle
      constructor <;> rw [hstates]
    exact (hfold.watch glances).unfold hkept.sound.restore
  · rw [hrestart]
    exact hkept.lasting
  · intro hatt
    rw [hrestart]
    exact hkept.state hatt
  · rw [hrestart]

theorem listening_remembered :
    (LeonAction.exec (watch (LeonAction.exec listeningLeon .toggleMinimised)
      [.poke, .frame 7, .frame 9]) .toggleMinimised).states.state = .listening :=
  (leon_remembers listeningLeon_reachable).2.2.1 (by decide) _

end HumanGate
