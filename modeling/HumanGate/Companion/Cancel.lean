import HumanGate.Lib.Table
import HumanGate.Model.Conversation

set_option autoImplicit false

/-! # Cancelling a turn

A cancel fences the results of earlier turns by their number. It does not fence what the recorders
have heard: a push-to-talk clip is sent by the very stop that the cancel causes, an utterance is
captured to its end, and what they posted before is run after it. A reply that was compared with the
number just before the cancel goes on too. If none of these is under way (`Companion.Quiet`),
nothing of the time before the cancel is heard of again; otherwise something may be
(`cancel_leaves`, `cancel_leaks`).
-/

namespace HumanGate

open Lib

variable {s t : Companion}

/-! ## What is under way -/

/-- The thread has heard something that it will post, whatever the flag is. -/
def CaptureThread.holdsAudio : CaptureThread → Bool
  | .reading _ => true
  | .looping pcm | .closing pcm => !pcm.isEmpty
  | .opening | .ended => false

def ListenThread.inUtterance : ListenThread → Bool
  | .capturing .. => true
  | _ => false

/-- The callback submits a turn, or leaves the idle status. -/
def PostedCallback.acts : PostedCallback → Bool
  | .recorded _ | .speechStarted | .speechCaptured _ => true
  | _ => false

/-- The reply has passed the comparison and is not yet announced. -/
def TurnPhase.accepted : TurnPhase → Bool
  | .replied _ _ | .remembered _ => true
  | _ => false

/-- No clip is being recorded, no utterance captured, no callback of either is posted, and no reply
is being taken in. -/
structure Companion.Quiet (s : Companion) : Prop where
  captures : ∀ c ∈ s.captures, c.holdsAudio = false
  listens : ∀ l ∈ s.listens, l.inUtterance = false
  posted : ∀ p ∈ s.posted, p.acts = false
  turns : ∀ v ∈ s.turns, v.phase.accepted = false

/-- The user starts a recording or submits a text, or a new utterance begins. -/
def CompanionOp.fresh (s : Companion) : CompanionOp → Bool
  | .submitText .. | .beginTalking _ => true
  | .listen i event =>
      s.listens[i]?.any fun l => (l.step s.running s.armed event).posts.contains .speechStarted
  | _ => false

def goesOn (s : Companion) (o : CompanionOp) : Prop := o.fresh s = false

instance decGoesOn (s : Companion) (o : CompanionOp) : Decidable (goesOn s o) :=
  inferInstanceAs (Decidable (o.fresh s = false))

/-- Since the cancel in `s` no turn was submitted, the status is idle and the history the same. -/
structure Companion.Kept (s t : Companion) : Prop where
  status : t.status = .idle
  turns : t.turns.length = s.turns.length
  history : t.history = s.history

/-! ## The numbers of turns -/

/-- No turn has a number yet to be given. -/
def Companion.Numbered (s : Companion) : Prop := ∀ v ∈ s.turns, v.id ≤ s.turnId

/-- The counter does not go back, and a turn is one of before or has its value. -/
structure Companion.Grows (s t : Companion) : Prop where
  turnId : s.turnId ≤ t.turnId
  turns : ∀ v ∈ t.turns, (∃ u ∈ s.turns, v.id = u.id) ∨ v.id = t.turnId

theorem Companion.Grows.numbered (h : s.Grows t) (hs : s.Numbered) : t.Numbered := by
  intro v hv
  rcases h.turns v hv with ⟨u, hu, hid⟩ | hid
  · calc v.id = u.id := hid
      _ ≤ s.turnId := hs u hu
      _ ≤ t.turnId := h.turnId
  · exact hid.le

/-- Steps that submit nothing. -/
theorem Companion.Grows.of_turns (hid : s.turnId ≤ t.turnId) (hturns : t.turns = s.turns) :
    s.Grows t :=
  ⟨hid, fun v hv => .inl ⟨v, hturns ▸ hv, rfl⟩⟩

theorem grows_submit (s : Companion) (input : TurnInput) (urlOk : Bool) :
    s.Grows (s.submit input urlOk) := by
  have hnew : ∀ v ∈ s.turns ++ [({
      id := s.turnId + 1
      input := input
      history := s.history
      phase := if urlOk then .inFlight else .finished } : VoiceTurn)],
      (∃ u ∈ s.turns, v.id = u.id) ∨ v.id = s.turnId + 1 :=
    Table.forall_push (fun v hv => .inl ⟨v, hv, rfl⟩) (.inr rfl)
  unfold Companion.submit
  cases urlOk <;> exact ⟨Nat.le_succ _, hnew⟩

/-- Only the counter and the turns of the state before count. -/
theorem Companion.Grows.of_same {u : Companion} (h : u.Grows t) (hid : u.turnId = s.turnId)
    (hturns : u.turns = s.turns) : s.Grows t := by
  refine ⟨hid ▸ h.turnId, fun v hv => ?_⟩
  rw [← hturns]
  exact h.turns v hv

/-- A result changes the phase of its turn, and no number. -/
theorem grows_proceed (s : Companion) (i : Nat) (phase : TurnPhase) :
    s.Grows (s.proceed i phase) :=
  ⟨le_rfl, Table.forall_modify
    (P := fun v : VoiceTurn => (∃ u ∈ s.turns, v.id = u.id) ∨ v.id = s.turnId)
    (fun v hv => .inl ⟨v, hv, rfl⟩) fun old hold => .inl ⟨old, Table.mem_of_get hold, rfl⟩⟩

theorem grows_result (s : Companion) (i : Nat) (event : ResultEvent) :
    s.Grows (s.result i event) := by
  unfold Companion.result
  split
  · exact .of_turns le_rfl rfl
  · split
    · exact grows_proceed s i _
    · exact grows_proceed s i _
    · exact (grows_proceed _ i _).of_same rfl rfl
    · exact (grows_proceed _ i _).of_same rfl rfl
    · exact (grows_proceed _ i _).of_same rfl rfl
    · exact (grows_proceed _ i _).of_same rfl rfl
    · exact (grows_proceed _ i _).of_same rfl rfl
    · exact .of_turns le_rfl rfl

theorem grows_runPosted (s : Companion) (urlOk : Bool) : s.Grows (s.runPosted urlOk) := by
  unfold Companion.runPosted
  split
  · exact .of_turns le_rfl rfl
  · rename_i callback rest _
    cases callback with
    | recorded clip =>
        exact (grows_submit { s with posted := rest } (.audio clip) urlOk).of_same rfl rfl
    | speechCaptured clip =>
        exact (grows_submit { s with posted := rest } (.audio clip) urlOk).of_same rfl rfl
    | speechRejected => exact .of_turns (Nat.le_succ _) rfl
    | recordFailed message => exact .of_turns le_rfl rfl
    | speechStarted => exact .of_turns le_rfl rfl
    | listenFailed message => exact .of_turns le_rfl rfl
    | playbackFinished id =>
        unfold Companion.run Companion.playbackEnds
        dsimp only
        split <;> exact .of_turns le_rfl rfl
    | playbackFailed id message =>
        unfold Companion.run Companion.playbackEnds
        dsimp only
        split <;> exact .of_turns le_rfl rfl

theorem grows_setAlwaysListening (s : Companion) (enabled : Bool) (mic : Option String) :
    s.Grows (s.setAlwaysListening enabled mic) := by
  unfold Companion.setAlwaysListening
  split
  · exact .of_turns le_rfl rfl
  · split
    · exact .of_turns le_rfl rfl
    · split
      · exact .of_turns le_rfl rfl
      · split <;> exact .of_turns le_rfl rfl

theorem exec_grows (s : Companion) (o : CompanionOp) : s.Grows (o.exec s) := by
  cases o with
  | submitText userText urlOk => exact grows_submit s _ urlOk
  | beginTalking mic =>
      show s.Grows (s.beginTalking mic)
      unfold Companion.beginTalking Companion.startRecorder
      split
      · exact .of_turns le_rfl rfl
      · split
        · exact .of_turns le_rfl rfl
        · split <;> exact .of_turns le_rfl rfl
  | finishListening => exact .of_turns le_rfl rfl
  | setAlwaysListening enabled mic => exact grows_setAlwaysListening s enabled mic
  | cancel => exact .of_turns (Nat.le_succ _) rfl
  | runPosted urlOk => exact grows_runPosted s urlOk
  | capture i event =>
      show s.Grows (s.capture i event)
      unfold Companion.capture
      split <;> exact .of_turns le_rfl rfl
  | listen i event =>
      show s.Grows (s.listen i event)
      unfold Companion.listen
      split <;> exact .of_turns le_rfl rfl
  | result i event => exact grows_result s i event
  | player error =>
      show s.Grows (s.player error)
      unfold Companion.player
      split <;> exact .of_turns le_rfl rfl

theorem reachable_numbered (h : companion.Reachable s) : s.Numbered := by
  refine h.invariant (I := Companion.Numbered) ?_ fun s o hs _ => (exec_grows s o).numbered hs
  intro s hs
  have hempty : s = {} := hs
  subst hempty
  exact fun v hv => nomatch hv

/-- A number below the counter is another turn's, while the counter has not gone round. -/
theorem sameTurn_of_lt {id turnId : Nat} (h : id < turnId) (hbound : turnId < 2 ^ 32) :
    sameTurn id turnId = false := by
  unfold sameTurn
  rw [Nat.mod_eq_of_lt hbound, Nat.mod_eq_of_lt (h.trans hbound)]
  exact beq_eq_false_iff_ne.mpr (Nat.ne_of_lt h)

/-! ## After a cancel -/

/-- What holds from a cancel on: what is kept, and that nothing of before is under way. -/
structure Companion.Settled (s t : Companion) : Prop where
  kept : s.Kept t
  quiet : t.Quiet
  recording : t.recording = false
  numbers : ∀ v ∈ t.turns, v.id < t.turnId

theorem settled_cancel (h : s.Quiet) (hnum : s.Numbered) : s.Settled s.cancel where
  kept := ⟨rfl, rfl, rfl⟩
  quiet := ⟨h.captures, h.listens, h.posted, h.turns⟩
  recording := rfl
  numbers := fun v hv => Nat.lt_succ_of_le (hnum v hv)

/-- A further cancel. -/
theorem Companion.Settled.cancel (h : s.Settled t) : s.Settled t.cancel where
  kept := ⟨rfl, h.kept.turns, h.kept.history⟩
  quiet := ⟨h.quiet.captures, h.quiet.listens, h.quiet.posted, h.quiet.turns⟩
  recording := rfl
  numbers := fun v hv => (h.numbers v hv).trans (Nat.lt_succ_self _)

/-- A message changes no status but back to idle. -/
theorem Companion.Settled.idle (h : s.Settled t) (detail : Option String) :
    s.Settled (t.setStatus .idle detail) where
  kept := ⟨rfl, h.kept.turns, h.kept.history⟩
  quiet := ⟨h.quiet.captures, h.quiet.listens, h.quiet.posted, h.quiet.turns⟩
  recording := h.recording
  numbers := h.numbers

theorem Companion.Settled.post (h : s.Settled t) {posts : List PostedCallback}
    (hposts : ∀ p ∈ posts, p.acts = false) : s.Settled { t with posted := t.posted ++ posts } where
  kept := ⟨h.kept.status, h.kept.turns, h.kept.history⟩
  quiet := ⟨h.quiet.captures, h.quiet.listens, fun p hp =>
    (List.mem_append.mp hp).elim (h.quiet.posted p) (hposts p), h.quiet.turns⟩
  recording := h.recording
  numbers := h.numbers

/-- The handler of a result goes on, without taking a reply in. -/
theorem Companion.Settled.proceed (h : s.Settled t) (i : Nat) {phase : TurnPhase}
    (hphase : phase.accepted = false) : s.Settled (t.proceed i phase) where
  kept := ⟨h.kept.status, (List.length_modify ..).trans h.kept.turns, h.kept.history⟩
  quiet := ⟨h.quiet.captures, h.quiet.listens, h.quiet.posted,
    Table.forall_modify (P := fun v : VoiceTurn => v.phase.accepted = false) h.quiet.turns
      fun _ _ => hphase⟩
  recording := h.recording
  numbers := Table.forall_modify (P := fun v : VoiceTurn => v.id < t.turnId) h.numbers
    fun old hold => h.numbers old (Table.mem_of_get hold)

/-- The player, the hands-free switch and its flag tell nothing. -/
theorem Companion.Settled.switch (h : s.Settled t) (playing : Option Nat)
    (alwaysListening running : Bool) : s.Settled { t with
      playing := playing
      alwaysListening := alwaysListening
      running := running } where
  kept := ⟨h.kept.status, h.kept.turns, h.kept.history⟩
  quiet := ⟨h.quiet.captures, h.quiet.listens, h.quiet.posted, h.quiet.turns⟩
  recording := h.recording
  numbers := h.numbers

/-! One lemma for each step that goes on. -/

theorem Companion.Settled.result (h : s.Settled t) (hbound : t.turnId < 2 ^ 32) (i : Nat)
    (event : ResultEvent) : s.Settled (t.result i event) := by
  unfold Companion.result
  cases hturn : t.turns[i]? with
  | none => exact h
  | some turn =>
      have hmem := Table.mem_of_get hturn
      have hother := sameTurn_of_lt (h.numbers turn hmem) hbound
      have hphase := h.quiet.turns turn hmem
      simp only [hother, Bool.false_eq_true, if_false]
      split
      · exact h.proceed i rfl
      · exact h.proceed i rfl
      · rename_i hreplied
        rw [hreplied] at hphase
        exact nomatch hphase
      · rename_i hremembered
        rw [hremembered] at hphase
        exact nomatch hphase
      · exact (h.switch (some turn.id) t.alwaysListening t.running).proceed i rfl
      · exact (h.switch none t.alwaysListening t.running).proceed i rfl
      · exact (h.idle _).proceed i rfl
      · exact h

/-- With the flag down, a thread that has heard nothing posts no clip. -/
theorem capture_silent {c : CaptureThread} (hc : c.holdsAudio = false) (event : CaptureEvent) :
    (c.step false event).thread.holdsAudio = false ∧ (c.step false event).flag = false ∧
      ∀ p ∈ (c.step false event).posts, p.acts = false := by
  unfold CaptureThread.step
  split
  · exact ⟨rfl, rfl, by simp⟩
  · exact ⟨rfl, rfl, by simp [PostedCallback.acts]⟩
  · exact ⟨rfl, rfl, by simp [PostedCallback.acts]⟩
  · exact ⟨rfl, rfl, by simp [PostedCallback.acts]⟩
  · exact ⟨hc, rfl, by simp⟩
  · exact nomatch hc
  · rename_i pcm
    have hempty : pcm.isEmpty = true := by simpa [CaptureThread.holdsAudio] using hc
    rw [if_pos hempty]
    exact ⟨rfl, rfl, by simp [PostedCallback.acts]⟩
  · exact ⟨hc, rfl, by simp⟩

theorem Companion.Settled.capture (h : s.Settled t) (i : Nat) (event : CaptureEvent) :
    s.Settled (t.capture i event) := by
  unfold Companion.capture
  cases hc : t.captures[i]? with
  | none => exact h
  | some c =>
      obtain ⟨hsilent, hflag, hposts⟩ :=
        capture_silent (h.quiet.captures c (Table.mem_of_get hc)) event
      simp only [h.recording]
      have hposted := h.post hposts
      exact {
        kept := ⟨h.kept.status, h.kept.turns, h.kept.history⟩
        quiet := ⟨fun c' hc' => by
            rcases List.mem_or_eq_of_mem_set hc' with hold | rfl
            · exact h.quiet.captures c' hold
            · exact hsilent,
          h.quiet.listens, hposted.quiet.posted, h.quiet.turns⟩
        recording := hflag
        numbers := h.numbers }

/-- Without an utterance, a chunk begins one or posts nothing. -/
theorem hearWaiting_cases (armed : Bool) (preRoll : List Clip) (aboveMs : Nat) (chunk : Clip) :
    ((hearWaiting armed preRoll aboveMs chunk).1.inUtterance = false ∧
        (hearWaiting armed preRoll aboveMs chunk).2 = []) ∨
      (hearWaiting armed preRoll aboveMs chunk).2 = [.speechStarted] := by
  unfold hearWaiting
  split
  · exact .inl ⟨rfl, rfl⟩
  · dsimp only
    generalize (if loud chunk then aboveMs + chunkMs else 0) = above
    split
    · exact .inr rfl
    · exact .inl ⟨rfl, rfl⟩

/-- A thread without an utterance has none afterwards and posts no clip, unless one begins. -/
theorem listen_silent {l : ListenThread} (hl : l.inUtterance = false) (running armed : Bool)
    (event : ListenEvent)
    (hold : (l.step running armed event).posts.contains .speechStarted = false) :
    (l.step running armed event).thread.inUtterance = false ∧
      ∀ p ∈ (l.step running armed event).posts, p.acts = false := by
  cases l with
  | capturing reading capture capturedMs belowMs => exact nomatch hl
  | ended => exact ⟨rfl, by simp [ListenThread.step]⟩
  | opening => cases event <;> exact ⟨rfl, by simp [ListenThread.step, PostedCallback.acts]⟩
  | waiting reading preRoll aboveMs =>
      cases reading with
      | false =>
          cases event with
          | check => cases running <;> exact ⟨rfl, by simp [ListenThread.step]⟩
          | _ => exact ⟨rfl, by simp [ListenThread.step]⟩
      | true =>
          cases event with
          | read chunk =>
              unfold ListenThread.step at hold ⊢
              by_cases hempty : chunk.isEmpty = true
              · simp [hempty, ListenThread.inUtterance]
              · simp only [hempty] at hold ⊢
                rcases hearWaiting_cases armed preRoll aboveMs chunk with ⟨hl, hnone⟩ | hnew
                · exact ⟨hl, by simp [hnone]⟩
                · simp [hnew] at hold
          | throws => exact ⟨rfl, by simp [ListenThread.step, PostedCallback.acts]⟩
          | _ => exact ⟨rfl, by simp [ListenThread.step]⟩

theorem Companion.Settled.listen (h : s.Settled t) (i : Nat) (event : ListenEvent)
    (hold : goesOn t (.listen i event)) : s.Settled (t.listen i event) := by
  unfold Companion.listen
  cases hl : t.listens[i]? with
  | none => exact h
  | some l =>
      have hnone : (l.step t.running t.armed event).posts.contains .speechStarted = false := by
        simpa [goesOn, CompanionOp.fresh, hl] using hold
      obtain ⟨hsilent, hposts⟩ :=
        listen_silent (h.quiet.listens l (Table.mem_of_get hl)) t.running t.armed event hnone
      have hposted := h.post hposts
      exact {
        kept := ⟨h.kept.status, h.kept.turns, h.kept.history⟩
        quiet := ⟨h.quiet.captures, fun l' hl' => by
            rcases List.mem_or_eq_of_mem_set hl' with hold | rfl
            · exact h.quiet.listens l' hold
            · exact hsilent,
          hposted.quiet.posted, h.quiet.turns⟩
        recording := h.recording
        numbers := h.numbers }

theorem Companion.Settled.runPosted (h : s.Settled t) (urlOk : Bool) :
    s.Settled (t.runPosted urlOk) := by
  unfold Companion.runPosted
  cases hposted : t.posted with
  | nil => exact h
  | cons callback rest =>
      have hacts : callback.acts = false :=
        h.quiet.posted callback (by rw [hposted]; exact List.mem_cons_self)
      have hrest : s.Settled { t with posted := rest } := {
        kept := ⟨h.kept.status, h.kept.turns, h.kept.history⟩
        quiet := ⟨h.quiet.captures, h.quiet.listens, fun p hp =>
          h.quiet.posted p (by rw [hposted]; exact List.mem_cons_of_mem _ hp), h.quiet.turns⟩
        recording := h.recording
        numbers := h.numbers }
      cases callback with
      | recorded clip => exact nomatch hacts
      | speechStarted => exact nomatch hacts
      | speechCaptured clip => exact nomatch hacts
      | recordFailed message => exact hrest.idle _
      | speechRejected => exact hrest.cancel
      | listenFailed message => exact (hrest.switch t.playing false t.running).idle _
      | playbackFinished id =>
          have hreleased := hrest.switch none t.alwaysListening t.running
          show s.Settled (Companion.playbackEnds _ _ _)
          unfold Companion.playbackEnds
          dsimp only
          split
          · exact hreleased.idle _
          · exact hreleased
      | playbackFailed id message =>
          have hreleased := hrest.switch none t.alwaysListening t.running
          show s.Settled (Companion.playbackEnds _ _ _)
          unfold Companion.playbackEnds
          dsimp only
          split
          · exact hreleased.idle _
          · exact hreleased

theorem Companion.Settled.setAlwaysListening (h : s.Settled t) (enabled : Bool)
    (mic : Option String) : s.Settled (t.setAlwaysListening enabled mic) := by
  unfold Companion.setAlwaysListening
  split
  · exact h
  · split
    · exact h.switch t.playing false false
    · split
      · exact h
      · cases mic with
        | some message => exact h.post (by simp [PostedCallback.acts])
        | none =>
            exact {
              kept := ⟨h.kept.status, h.kept.turns, h.kept.history⟩
              quiet := ⟨h.quiet.captures, Table.forall_push h.quiet.listens rfl, h.quiet.posted,
                h.quiet.turns⟩
              recording := h.recording
              numbers := h.numbers }

/-- **A step that goes on** leaves what is settled. -/
theorem Companion.Settled.exec (h : s.Settled t) (hbound : t.turnId < 2 ^ 32) {o : CompanionOp}
    (hold : goesOn t o) : s.Settled (o.exec t) := by
  cases o with
  | submitText userText urlOk => exact nomatch hold
  | beginTalking mic => exact nomatch hold
  | finishListening =>
      exact {
        kept := ⟨h.kept.status, h.kept.turns, h.kept.history⟩
        quiet := ⟨h.quiet.captures, h.quiet.listens, h.quiet.posted, h.quiet.turns⟩
        recording := rfl
        numbers := h.numbers }
  | setAlwaysListening enabled mic => exact h.setAlwaysListening enabled mic
  | cancel => exact h.cancel
  | runPosted urlOk => exact h.runPosted urlOk
  | capture i event => exact h.capture i event
  | listen i event => exact h.listen i event hold
  | result i event => exact h.result hbound i event
  | player error =>
      show s.Settled (t.player error)
      unfold Companion.player
      split
      · exact h
      · refine h.post fun p hp => ?_
        rw [List.mem_singleton.mp hp]
        cases error <;> rfl

/-- **Nothing of before is heard of again** if nothing was under way. -/
theorem cancel_leaves (hs : companion.Reachable s) (hquiet : s.Quiet)
    (h : (companion.restrict goesOn).Steps s.cancel t) (hbound : t.turnId < 2 ^ 32) :
    s.Kept t := by
  have hsettled : s.Settled t := by
    induction h with
    | refl => exact settled_cancel hquiet (reachable_numbered hs)
    | @step u o _ ho ih =>
        have hbefore : u.turnId < 2 ^ 32 := (exec_grows u o).turnId.trans_lt hbound
        exact (ih hbefore).exec hbefore ho.2
  exact hsettled.kept

/-! ## What was under way -/

/-- The steps after a cancel. -/
abbrev Companion.GoesTo (s t : Companion) : Prop := (companion.restrict goesOn).Steps s t

theorem goesTo_exec {u : Companion} (h : s.GoesTo u) (o : CompanionOp) (ho : o.fresh u = false) :
    s.GoesTo (o.exec u) :=
  h.step ⟨trivial, ho⟩

theorem run_posted (s : Companion) (urlOk : Bool) (callback : PostedCallback) :
    (s.run urlOk callback).posted = s.posted := by
  cases callback with
  | recorded clip => cases urlOk <;> rfl
  | speechCaptured clip => cases urlOk <;> rfl
  | playbackFinished id =>
      unfold Companion.run Companion.playbackEnds
      dsimp only
      split <;> rfl
  | playbackFailed id message =>
      unfold Companion.run Companion.playbackEnds
      dsimp only
      split <;> rfl
  | _ => rfl

theorem submit_turns (s : Companion) (input : TurnInput) (urlOk : Bool) :
    (s.submit input urlOk).turns.length = s.turns.length + 1 := by
  cases urlOk <;> simp [Companion.submit, Companion.reportFailure, Companion.setStatus]

theorem run_turns (s : Companion) (urlOk : Bool) (callback : PostedCallback) :
    s.turns.length ≤ (s.run urlOk callback).turns.length := by
  cases callback with
  | recorded clip => exact (submit_turns s _ urlOk).symm ▸ Nat.le_succ _
  | speechCaptured clip => exact (submit_turns s _ urlOk).symm ▸ Nat.le_succ _
  | playbackFinished id =>
      unfold Companion.run Companion.playbackEnds
      dsimp only
      split <;> exact le_rfl
  | playbackFailed id message =>
      unfold Companion.run Companion.playbackEnds
      dsimp only
      split <;> exact le_rfl
  | _ => exact le_rfl

/-- A callback that acts changes what a cancel settled. -/
theorem run_acts {u : Companion} {p : PostedCallback} (hp : p.acts = true)
    (hturns : s.turns.length ≤ u.turns.length) : ¬ s.Kept (u.run true p) := by
  have hsubmit : ∀ input, ¬ s.Kept (u.submit input true) := by
    intro input hkept
    have hmore := submit_turns u input true
    have hsame := hkept.turns
    omega
  cases p with
  | recorded clip => exact hsubmit (.audio clip)
  | speechCaptured clip => exact hsubmit (.audio clip)
  | speechStarted => exact fun hkept => nomatch hkept.status
  | _ => exact nomatch hp

/-- **What is posted is run**, after all that was posted before it. -/
theorem posted_leaks {p : PostedCallback} (hp : p.acts = true) {rest : List PostedCallback}
    (pre : List PostedCallback) : ∀ {u : Companion}, u.posted = pre ++ p :: rest →
      s.turns.length ≤ u.turns.length → ∃ t, u.GoesTo t ∧ ¬ s.Kept t := by
  induction pre with
  | nil =>
      intro u hposted hturns
      refine ⟨_, goesTo_exec .refl (.runPosted true) rfl, ?_⟩
      show ¬ s.Kept (u.runPosted true)
      unfold Companion.runPosted
      rw [hposted]
      exact run_acts hp hturns
  | cons q pre ih =>
      intro u hposted hturns
      have hfirst : u.runPosted true = { u with posted := pre ++ p :: rest }.run true q := by
        unfold Companion.runPosted
        rw [hposted]
        rfl
      have hstep : u.GoesTo (u.runPosted true) := goesTo_exec .refl (.runPosted true) rfl
      have hnext : (u.runPosted true).posted = pre ++ p :: rest := by rw [hfirst, run_posted]
      obtain ⟨t, hsteps, hleak⟩ := ih hnext (by
        rw [hfirst]
        exact hturns.trans (run_turns { u with posted := pre ++ p :: rest } true q))
      exact ⟨t, hstep.trans hsteps, hleak⟩

theorem leaks_of_mem {u : Companion} {p : PostedCallback} (hmem : p ∈ u.posted)
    (hp : p.acts = true) (hturns : s.turns.length ≤ u.turns.length) :
    ∃ t, u.GoesTo t ∧ ¬ s.Kept t := by
  obtain ⟨pre, rest, hposted⟩ := List.append_of_mem hmem
  exact posted_leaks hp pre hposted hturns

/-! Push-to-talk: the flag is down, so the thread leaves its loop and posts what it has. -/

theorem capture_exec {u : Companion} {i : Nat} {c : CaptureThread} (hc : u.captures[i]? = some c)
    (event : CaptureEvent) :
    (u.capture i event).captures[i]? = some (c.step u.recording event).thread ∧
      (u.capture i event).recording = (c.step u.recording event).flag ∧
      (u.capture i event).posted = u.posted ++ (c.step u.recording event).posts ∧
      (u.capture i event).turns = u.turns := by
  have hlt := (List.getElem?_eq_some_iff.mp hc).1
  unfold Companion.capture
  rw [hc]
  exact ⟨by simp [hlt], rfl, rfl, rfl⟩

theorem closing_leaks {u : Companion} {i : Nat} {pcm : Clip} (hpcm : pcm.isEmpty = false)
    (hc : u.captures[i]? = some (.closing pcm)) (hturns : s.turns.length ≤ u.turns.length) :
    ∃ t, u.GoesTo t ∧ ¬ s.Kept t := by
  obtain ⟨_, _, hposted, hsame⟩ := capture_exec hc .post
  have hstep : u.GoesTo (u.capture i .post) := goesTo_exec .refl (.capture i .post) rfl
  have hmem : .recorded pcm ∈ (u.capture i .post).posted := by
    rw [hposted]
    simp [CaptureThread.step, hpcm]
  obtain ⟨t, hsteps, hleak⟩ := leaks_of_mem (s := s) hmem rfl (by rw [hsame]; exact hturns)
  exact ⟨t, hstep.trans hsteps, hleak⟩

theorem looping_leaks {u : Companion} {i : Nat} {pcm : Clip} (hpcm : pcm.isEmpty = false)
    (hc : u.captures[i]? = some (.looping pcm)) (hflag : u.recording = false)
    (hturns : s.turns.length ≤ u.turns.length) : ∃ t, u.GoesTo t ∧ ¬ s.Kept t := by
  obtain ⟨hnext, _, _, hsame⟩ := capture_exec hc (.check false)
  have hstep : u.GoesTo (u.capture i (.check false)) :=
    goesTo_exec .refl (.capture i (.check false)) rfl
  rw [hflag] at hnext
  obtain ⟨t, hsteps, hleak⟩ := closing_leaks (s := s) hpcm hnext (by rw [hsame]; exact hturns)
  exact ⟨t, hstep.trans hsteps, hleak⟩

theorem capture_leaks {u : Companion} {i : Nat} {c : CaptureThread} (hc : u.captures[i]? = some c)
    (haudio : c.holdsAudio = true) (hflag : u.recording = false)
    (hturns : s.turns.length ≤ u.turns.length) : ∃ t, u.GoesTo t ∧ ¬ s.Kept t := by
  cases c with
  | opening => exact nomatch haudio
  | ended => exact nomatch haudio
  | closing pcm => exact closing_leaks (by simpa [CaptureThread.holdsAudio] using haudio) hc hturns
  | looping pcm =>
      exact looping_leaks (by simpa [CaptureThread.holdsAudio] using haudio) hc hflag hturns
  | reading pcm =>
      -- the read that is waited for returns
      obtain ⟨hnext, hdown, _, hsame⟩ := capture_exec hc (.read [0, 0])
      have hstep : u.GoesTo (u.capture i (.read [0, 0])) :=
        goesTo_exec .refl (.capture i (.read [0, 0])) rfl
      have hpcm : (pcm ++ [0, 0]).isEmpty = false := by simp
      obtain ⟨t, hsteps, hleak⟩ := looping_leaks (s := s) hpcm hnext (hdown.trans hflag)
        (by rw [hsame]; exact hturns)
      exact ⟨t, hstep.trans hsteps, hleak⟩

/-! Hands-free: the thread goes on to the end of the utterance. -/

/-- One loud sample. -/
def loudChunk : Clip := [255, 127]

theorem loud_loudChunk : loud loudChunk = true := by decide +kernel

theorem loudChunk_isEmpty : loudChunk.isEmpty = false := rfl

theorem listen_exec {u : Companion} {i : Nat} {l : ListenThread} (hl : u.listens[i]? = some l)
    (event : ListenEvent) :
    (u.listen i event).listens[i]? = some (l.step u.running u.armed event).thread ∧
      (u.listen i event).running = (l.step u.running u.armed event).flag ∧
      (u.listen i event).posted = u.posted ++ (l.step u.running u.armed event).posts ∧
      (u.listen i event).turns = u.turns := by
  have hlt := (List.getElem?_eq_some_iff.mp hl).1
  unfold Companion.listen
  rw [hl]
  exact ⟨by simp [hlt], rfl, rfl, rfl⟩

/-- The thread of an utterance begins no other one. -/
theorem listen_goesOn {u : Companion} {i : Nat} {reading : Bool} {capture : Clip}
    {capturedMs belowMs : Nat}
    (hl : u.listens[i]? = some (.capturing reading capture capturedMs belowMs))
    (event : ListenEvent)
    (hposts : (ListenThread.step u.running u.armed (.capturing reading capture capturedMs belowMs)
      event).posts.contains .speechStarted = false) : u.GoesTo (u.listen i event) := by
  refine goesTo_exec .refl (.listen i event) ?_
  simp only [CompanionOp.fresh, hl, Option.any_some, hposts]

/-- The last chunk before the maximum duration. -/
theorem last_chunk_leaks {u : Companion} {i : Nat} {capture : Clip} {capturedMs belowMs : Nat}
    (hl : u.listens[i]? = some (.capturing true capture capturedMs belowMs))
    (hturns : s.turns.length ≤ u.turns.length) (hend : maxDurationMs ≤ capturedMs + chunkMs) :
    ∃ t, u.GoesTo t ∧ ¬ s.Kept t := by
  have hmin : ¬ capturedMs + chunkMs < minCaptureMs :=
    Nat.not_lt.mpr (le_trans (by decide) hend)
  have hposts : (ListenThread.step u.running u.armed
      (.capturing true capture capturedMs belowMs) (.read loudChunk)).posts
      = [.speechCaptured (capture ++ loudChunk)] := by
    simp [ListenThread.step, hearCapturing, hend, finishUtterance, hmin, loudChunk]
  obtain ⟨_, _, hposted, hsame⟩ := listen_exec hl (.read loudChunk)
  have hstep := listen_goesOn hl (.read loudChunk) (by rw [hposts]; rfl)
  have hmem : .speechCaptured (capture ++ loudChunk) ∈ (u.listen i (.read loudChunk)).posted := by
    rw [hposted, hposts]
    simp
  obtain ⟨t, hsteps, hleak⟩ := leaks_of_mem (s := s) hmem rfl (by rw [hsame]; exact hturns)
  exact ⟨t, hstep.trans hsteps, hleak⟩

/-- **An utterance is captured** when it has lasted for the maximum, `n` chunks later. -/
theorem reading_leaks (n : Nat) : ∀ {u : Companion} {i : Nat} {capture : Clip}
    {capturedMs belowMs : Nat},
    u.listens[i]? = some (.capturing true capture capturedMs belowMs) → u.running = true →
      s.turns.length ≤ u.turns.length → maxDurationMs ≤ capturedMs + chunkMs * (n + 1) →
        ∃ t, u.GoesTo t ∧ ¬ s.Kept t := by
  induction n with
  | zero =>
      intro u i capture capturedMs belowMs hl _ hturns hlong
      exact last_chunk_leaks hl hturns hlong
  | succ n ih =>
      intro u i capture capturedMs belowMs hl hrunning hturns hlong
      by_cases hend : maxDurationMs ≤ capturedMs + chunkMs
      · exact last_chunk_leaks hl hturns hend
      · -- one more chunk, and once more past the condition of the loop
        have hread : ListenThread.step u.running u.armed
            (.capturing true capture capturedMs belowMs) (.read loudChunk) = {
              thread := .capturing false (capture ++ loudChunk) (capturedMs + chunkMs) 0
              flag := u.running } := by
          simp [ListenThread.step, hearCapturing, loud_loudChunk, loudChunk_isEmpty, hend,
            trailingSilenceMs]
        obtain ⟨hl', hrunning', _, hsame⟩ := listen_exec hl (.read loudChunk)
        have hstep := listen_goesOn hl (.read loudChunk) (by rw [hread]; rfl)
        rw [hread] at hl' hrunning'
        have hup : (u.listen i (.read loudChunk)).running = true := hrunning'.trans hrunning
        obtain ⟨hl'', hrunning'', _, hsame'⟩ := listen_exec hl' .check
        have hcheck : ∀ armed, ListenThread.step true armed
            (.capturing false (capture ++ loudChunk) (capturedMs + chunkMs) 0) .check = {
              thread := .capturing true (capture ++ loudChunk) (capturedMs + chunkMs) 0
              flag := true } := fun _ => rfl
        have hstep' := listen_goesOn hl' .check (by rw [hup, hcheck]; rfl)
        rw [hup, hcheck] at hl'' hrunning''
        have hlong' : maxDurationMs ≤ capturedMs + chunkMs + chunkMs * (n + 1) := by
          rw [Nat.mul_succ] at hlong
          omega
        obtain ⟨t, hsteps, hleak⟩ := ih hl'' hrunning'' (by rw [hsame', hsame]; exact hturns) hlong'
        exact ⟨t, (hstep.trans hstep').trans hsteps, hleak⟩

/-- The user can have hands-free listening on again, if its flag is down. -/
theorem listening_on (u : Companion) : ∃ t, u.GoesTo t ∧ t.running = true ∧ t.turns = u.turns ∧
    ∀ (i : Nat) (l : ListenThread), u.listens[i]? = some l → t.listens[i]? = some l := by
  have hkeeps : ∀ (i : Nat) (l : ListenThread), u.listens[i]? = some l →
      (u.listens ++ [.opening])[i]? = some l := fun i l hl => Table.get_push_of_some hl
  cases hrunning : u.running with
  | true => exact ⟨u, .refl, hrunning, rfl, fun _ _ hl => hl⟩
  | false =>
      have hon : u.GoesTo (u.setAlwaysListening true none) :=
        goesTo_exec .refl (.setAlwaysListening true none) rfl
      cases halways : u.alwaysListening with
      | false =>
          refine ⟨_, hon, ?_⟩
          simp only [Companion.setAlwaysListening, halways, hrunning]
          exact ⟨rfl, rfl, hkeeps⟩
      | true =>
          have hoff : u.GoesTo (u.setAlwaysListening false none) :=
            goesTo_exec .refl (.setAlwaysListening false none) rfl
          refine ⟨_, goesTo_exec hoff (.setAlwaysListening true none) rfl, ?_⟩
          simp only [CompanionOp.exec, Companion.setAlwaysListening, halways]
          exact ⟨rfl, rfl, hkeeps⟩

theorem utterance_leaks {u : Companion} {i : Nat} {l : ListenThread} (hl : u.listens[i]? = some l)
    (hutterance : l.inUtterance = true) (hturns : s.turns.length ≤ u.turns.length) :
    ∃ t, u.GoesTo t ∧ ¬ s.Kept t := by
  cases l with
  | opening => exact nomatch hutterance
  | waiting reading preRoll aboveMs => exact nomatch hutterance
  | ended => exact nomatch hutterance
  | capturing reading capture capturedMs belowMs =>
      obtain ⟨v, hon, hrunning, hsame, hkeeps⟩ := listening_on u
      have hv := hkeeps i _ hl
      have hlong : maxDurationMs ≤ capturedMs + chunkMs * (999 + 1) := by
        show 30000 ≤ capturedMs + 30 * (999 + 1)
        omega
      cases reading with
      | true =>
          obtain ⟨t, hsteps, hleak⟩ := reading_leaks (s := s) 999 hv hrunning
            (by rw [hsame]; exact hturns) hlong
          exact ⟨t, hon.trans hsteps, hleak⟩
      | false =>
          obtain ⟨hv', hrunning', _, hsame'⟩ := listen_exec hv .check
          have hcheck : ∀ armed, ListenThread.step true armed
              (.capturing false capture capturedMs belowMs) .check = {
                thread := .capturing true capture capturedMs belowMs
                flag := true } := fun _ => rfl
          have hstep := listen_goesOn hv .check (by rw [hrunning, hcheck]; rfl)
          rw [hrunning, hcheck] at hv' hrunning'
          obtain ⟨t, hsteps, hleak⟩ := reading_leaks (s := s) 999 hv' hrunning'
            (by rw [hsame', hsame]; exact hturns) hlong
          exact ⟨t, (hon.trans hstep).trans hsteps, hleak⟩

/-! A reply that has passed the comparison is announced. -/

theorem remembered_leaks {u : Companion} {i : Nat} {v : VoiceTurn} {reply : String}
    (hv : u.turns[i]? = some v) (hphase : v.phase = .remembered reply) :
    ∃ t, u.GoesTo t ∧ ¬ s.Kept t := by
  refine ⟨_, goesTo_exec .refl (.result i .next) rfl, fun hkept => ?_⟩
  have hstatus := hkept.status
  simp [CompanionOp.exec, Companion.result, hv, hphase, Companion.proceed, Companion.setStatus]
    at hstatus

theorem accepted_leaks {u : Companion} {i : Nat} {v : VoiceTurn} (hv : u.turns[i]? = some v)
    (haccepted : v.phase.accepted = true) : ∃ t, u.GoesTo t ∧ ¬ s.Kept t := by
  cases hphase : v.phase with
  | remembered reply => exact remembered_leaks hv hphase
  | replied userText reply =>
      have hstep : u.GoesTo (u.result i .next) := goesTo_exec .refl (.result i .next) rfl
      have hnext : (u.result i .next).turns[i]? = some { v with phase := .remembered reply } := by
        simp [Companion.result, hv, hphase, Companion.proceed]
      obtain ⟨t, hsteps, hleak⟩ := remembered_leaks (s := s) hnext rfl
      exact ⟨t, hstep.trans hsteps, hleak⟩
  | _ =>
      rw [hphase] at haccepted
      exact nomatch haccepted

/-- **What was under way may be heard of again.** -/
theorem cancel_leaks (h : ¬ s.Quiet) : ∃ t, s.cancel.GoesTo t ∧ ¬ s.Kept t := by
  by_contra hnone
  refine h ⟨fun c hc => ?_, fun l hl => ?_, fun p hp => ?_, fun v hv => ?_⟩
  · rw [← Bool.not_eq_true]
    intro haudio
    obtain ⟨i, hi⟩ := List.getElem?_of_mem hc
    exact hnone (capture_leaks (u := s.cancel) hi haudio rfl le_rfl)
  · rw [← Bool.not_eq_true]
    intro hutterance
    obtain ⟨i, hi⟩ := List.getElem?_of_mem hl
    exact hnone (utterance_leaks (u := s.cancel) hi hutterance le_rfl)
  · rw [← Bool.not_eq_true]
    intro hacts
    exact hnone (leaks_of_mem (u := s.cancel) hp hacts le_rfl)
  · rw [← Bool.not_eq_true]
    intro haccepted
    obtain ⟨i, hi⟩ := List.getElem?_of_mem hv
    exact hnone (accepted_leaks (u := s.cancel) hi haccepted)

/-! ## Cancelling -/

/-- **A cancel cancels** exactly when no recording, no utterance and no reply is under way. If none
is, then whatever the threads and the main thread do, until the user starts anew or a new utterance
begins, no turn is submitted, the status stays idle and the history the same, as long as the counter
of the turns does not go round. If one is, they may go on so that this fails. -/
theorem cancel_cancels (s : Companion) (hs : companion.Reachable s) :
    (s.Quiet → ∀ t, (companion.restrict goesOn).Steps s.cancel t → t.turnId < 2 ^ 32 → s.Kept t) ∧
      (¬ s.Quiet → ∃ t, (companion.restrict goesOn).Steps s.cancel t ∧ ¬ s.Kept t) :=
  ⟨fun hquiet _ h hbound => cancel_leaves hs hquiet h hbound, cancel_leaks⟩

/-- The button is held and something was heard. -/
def heldOps : List CompanionOp :=
  [.beginTalking none, .capture 0 .opened, .capture 0 (.check false), .capture 0 (.read [1, 2])]

/-- Hands-free listening hears five loud chunks. -/
def utteranceOps : List CompanionOp :=
  [.setAlwaysListening true none, .listen 0 .opened] ++
    (List.replicate 5 [.listen 0 .check, .listen 0 (.read loudChunk)]).flatten ++ [.runPosted true]

/-- A pause of thirty chunks ends the utterance. -/
def pauseOps : List CompanionOp :=
  (List.replicate 30 [.listen 0 .check, .listen 0 (.read [0, 0])]).flatten ++ [.runPosted true]

/-- The reply of a turn arrives, and its number is compared. -/
def repliedOps : List CompanionOp :=
  [.submitText "hello" true, .result 0 (.success "hello" "hi there")]

/-- After a cancel the clip of the held button is sent, and so is the utterance that was under way;
and a reply that arrives with the cancel is announced and remembered. -/
theorem cancel_leaks_all :
    (∃ s t, companion.Reachable s ∧ (companion.restrict goesOn).Steps s.cancel t ∧
      s.turns = [] ∧ t.turns.map VoiceTurn.input = [.audio [1, 2]] ∧ t.status = .thinking) ∧
    (∃ s t, companion.Reachable s ∧ (companion.restrict goesOn).Steps s.cancel t ∧
      s.turns = [] ∧ t.turns.length = 1 ∧ t.status = .thinking) ∧
    ∃ s t, companion.Reachable s ∧ (companion.restrict goesOn).Steps s.cancel t ∧
      s.history = [] ∧ t.history = [⟨"user", "hello"⟩, ⟨"assistant", "hi there"⟩] ∧
        t.status = .speaking := by
  refine ⟨⟨heldOps.foldl companion.exec {}, _, .of_legal heldOps (.init rfl) (by decide +kernel),
    .of_legal [.capture 0 (.check false), .capture 0 .post, .runPosted true] (by decide +kernel),
    by decide +kernel⟩, ⟨utteranceOps.foldl companion.exec {}, _,
    .of_legal utteranceOps (.init rfl) (by decide +kernel),
    .of_legal pauseOps (by decide +kernel), by decide +kernel⟩,
    ⟨repliedOps.foldl companion.exec {}, _, .of_legal repliedOps (.init rfl) (by decide +kernel),
    .of_legal [.result 0 .next, .result 0 .next] (by decide +kernel), by decide +kernel⟩⟩

/-- The reply comes after the cancel. -/
def lateReplyOps : List CompanionOp :=
  [.result 0 (.success "hello" "hi there"), .result 0 .next]

/-- A turn is cancelled while the companion thinks, and its reply comes too late. -/
theorem late_reply_dropped :
    ((CompanionOp.submitText "hello" true).exec {}).Kept
      (lateReplyOps.foldl (companion.restrict goesOn).exec
        ((CompanionOp.submitText "hello" true).exec {}).cancel) := by
  have hs : companion.Reachable ((CompanionOp.submitText "hello" true).exec {}) :=
    .of_legal [CompanionOp.submitText "hello" true] (.init rfl) (by decide)
  refine (cancel_cancels _ hs).1 ?_ _ (.of_legal lateReplyOps (by decide +kernel))
    (by decide +kernel)
  exact ⟨by decide, by decide, by decide, by decide⟩

end HumanGate
