import HumanGate.Lib.Answers
import HumanGate.Model.Conversation

set_option autoImplicit false

/-! # Every speech start is answered, unless listening is switched off

Whoever is told of a speech start takes a listening posture and relies on an answer to leave it. An
utterance that ends by a pause or by the ceiling is answered, and an exception is, too; a stop flag
that is seen in the middle of an utterance is not (`starts_answered_iff`).
-/

namespace HumanGate

open Lib Lib.Answers

/-! ## Runs of the thread -/

/-- What a step of the thread meets: the flag, the answer of the arm gate, and the event. -/
structure ListenInput where
  running : Bool
  armed : Bool
  event : ListenEvent

/-- The thread, and what it has posted. -/
abbrev Hearing := ListenThread × List PostedCallback

def hear (h : Hearing) (i : ListenInput) : Hearing :=
  let next := h.1.step i.running i.armed i.event
  (next.thread, h.2 ++ next.posts)

/-- A run of the loop. -/
def listenLoop (run : List ListenInput) : Hearing := run.foldl hear (.opening, [])

variable {l : ListenThread} {log : List PostedCallback} {i : ListenInput}
  {run before rest : List ListenInput}

theorem listenLoop_concat (run : List ListenInput) (i : ListenInput) :
    listenLoop (run ++ [i]) = hear (listenLoop run) i := by
  unfold listenLoop
  rw [List.foldl_append]
  rfl

/-- **Invariants of a run.** -/
theorem listenLoop_invariant (inv : Hearing → Prop) (hstart : inv (.opening, []))
    (hstep : ∀ h i, inv h → inv (hear h i)) (run : List ListenInput) : inv (listenLoop run) := by
  induction run using List.reverseRecOn with
  | nil => exact hstart
  | append_singleton run i ih =>
      rw [listenLoop_concat]
      exact hstep _ i ih

/-- A thread that has ended does nothing more. -/
theorem listenLoop_ended (h : (listenLoop before).1 = .ended) (rest : List ListenInput) :
    listenLoop (before ++ rest) = listenLoop before := by
  induction rest using List.reverseRecOn with
  | nil => rw [List.append_nil]
  | append_singleton rest i ih =>
      rw [← List.append_assoc, listenLoop_concat, ih]
      unfold hear ListenThread.step
      rw [h]
      exact Prod.ext h.symm (List.append_nil _)

/-- The step that ends a run. -/
theorem listenLoop_ends (h : (listenLoop run).1 = .ended) :
    ∃ before i rest, run = before ++ i :: rest ∧ (listenLoop before).1 ≠ .ended ∧
      (hear (listenLoop before) i).1 = .ended ∧ listenLoop run = hear (listenLoop before) i := by
  induction run using List.reverseRecOn with
  | nil => exact nomatch h
  | append_singleton run i ih =>
      by_cases hended : (listenLoop run).1 = .ended
      · obtain ⟨before, j, rest, rfl, hbefore, hj, heq⟩ := ih hended
        refine ⟨before, j, rest ++ [i], ?_, hbefore, hj, ?_⟩
        · rw [List.append_assoc, List.cons_append]
        · rw [listenLoop_ended hended, heq]
      · rw [listenLoop_concat] at h
        exact ⟨run, i, [], rfl, hended, h, listenLoop_concat run i⟩

/-! ## Chunks -/

/-- **A chunk while waiting** starts an utterance, if it is the last of enough loud ones, or is
added to the pre-roll; an unarmed gate empties that. -/
theorem hearWaiting_spec (armed : Bool) (preRoll : List Clip) (aboveMs : Nat) (chunk : Clip) :
    hearWaiting armed preRoll aboveMs chunk = (.waiting false [] 0, []) ∨
      ∃ preRoll', preRoll' = (preRoll ++ [chunk]).drop (preRoll.length + 1 - 10) ∧
        ((loud chunk = true ∧ 150 ≤ aboveMs + 30 ∧
          hearWaiting armed preRoll aboveMs chunk
            = (.capturing false preRoll'.flatten (preRoll'.length * 30) 0, [.speechStarted])) ∨
        ∃ above, above < 150 ∧ (loud chunk = true → above = aboveMs + 30) ∧
          (loud chunk = false → above = 0) ∧
          hearWaiting armed preRoll aboveMs chunk = (.waiting false preRoll' above, [])) := by
  unfold hearWaiting
  cases armed with
  | false => exact .inl rfl
  | true =>
      refine .inr ⟨_, rfl, ?_⟩
      cases hloud : loud chunk with
      | false => exact .inr ⟨0, by decide, fun h => (nomatch h), fun _ => rfl, rfl⟩
      | true =>
          show (_ ∧ _ ∧ (if speechConfirmMs ≤ aboveMs + chunkMs then _ else _) = _) ∨ _
          by_cases henough : speechConfirmMs ≤ aboveMs + chunkMs
          · rw [if_pos henough]
            exact .inl ⟨rfl, henough, rfl⟩
          · refine .inr ⟨aboveMs + chunkMs, not_le.mp henough, fun _ => rfl,
              fun h => (nomatch h), ?_⟩
            exact if_neg henough

/-- **A chunk while capturing** ends the utterance, after a pause or at the ceiling, or is added to
it. -/
theorem hearCapturing_spec (capture : Clip) (capturedMs belowMs : Nat) (chunk : Clip) :
    ∃ below, below ≤ belowMs + 30 ∧
      (((900 ≤ below ∨ 30000 ≤ capturedMs + 30) ∧
        hearCapturing capture capturedMs belowMs chunk
          = (.waiting false [] 0, [finishUtterance (capture ++ chunk) (capturedMs + 30)])) ∨
      (capturedMs + 30 < 30000 ∧
        hearCapturing capture capturedMs belowMs chunk
          = (.capturing false (capture ++ chunk) (capturedMs + 30) below, []))) := by
  refine ⟨if loud chunk then 0 else belowMs + chunkMs, ?_, ?_⟩
  · cases loud chunk with
    | false => exact le_rfl
    | true => exact Nat.zero_le _
  · by_cases hend : trailingSilenceMs ≤ (if loud chunk then 0 else belowMs + chunkMs) ∨
        maxDurationMs ≤ capturedMs + chunkMs
    · exact .inl ⟨hend, if_pos hend⟩
    · exact .inr ⟨not_le.mp fun h => hend (.inr h), if_neg hend⟩

/-! ## Starts and answers -/

/-- A speech start asks for an answer; every other callback is one. -/
def asks : PostedCallback → Bool
  | .speechStarted => true
  | _ => false

/-- Every start is answered, but for the one of the utterance that is being captured. -/
def Owing : Hearing → Prop
  | (.opening, log) => log = []
  | (.waiting .., log) => Pairs asks log
  | (.capturing .., log) => ∃ before, log = before ++ [.speechStarted] ∧ Pairs asks before
  | (.ended, _) => True

theorem asks_finish (pcm : Clip) (durationMs : Nat) :
    asks (finishUtterance pcm durationMs) = false := by
  unfold finishUtterance
  split <;> rfl

theorem hearWaiting_owing (armed : Bool) (preRoll : List Clip) (aboveMs : Nat) (chunk : Clip)
    (h : Pairs asks log) :
    Owing ((hearWaiting armed preRoll aboveMs chunk).1,
      log ++ (hearWaiting armed preRoll aboveMs chunk).2) := by
  rcases hearWaiting_spec armed preRoll aboveMs chunk with heq | ⟨preRoll', _, ⟨_, _, heq⟩ | ⟨above,
    _, _, _, heq⟩⟩
  · rw [heq, List.append_nil]
    exact h
  · rw [heq]
    exact ⟨log, rfl, h⟩
  · rw [heq, List.append_nil]
    exact h

theorem hearCapturing_owing (capture : Clip) (capturedMs belowMs : Nat) (chunk : Clip)
    (h : ∃ before, log = before ++ [.speechStarted] ∧ Pairs asks before) :
    Owing ((hearCapturing capture capturedMs belowMs chunk).1,
      log ++ (hearCapturing capture capturedMs belowMs chunk).2) := by
  obtain ⟨before, hlog, hpairs⟩ := h
  obtain ⟨below, _, ⟨_, heq⟩ | ⟨_, heq⟩⟩ := hearCapturing_spec capture capturedMs belowMs chunk
  · -- the utterance ends, and its start is answered
    rw [heq, hlog, List.append_assoc]
    exact hpairs.push rfl (asks_finish _ _)
  · rw [heq, List.append_nil]
    exact ⟨before, hlog, hpairs⟩

/-- **A step keeps the account** of the starts. -/
theorem hear_owing (h : Hearing) (i : ListenInput) (howing : Owing h) : Owing (hear h i) := by
  obtain ⟨l, log⟩ := h
  obtain ⟨running, armed, event⟩ := i
  -- where nothing is posted, only the thread matters
  have hquiet : ∀ {l' : ListenThread}, Owing (l', log) → Owing (l', log ++ []) := fun h => by
    rw [List.append_nil]
    exact h
  cases l with
  | opening => cases event with
    | opened =>
        rw [show log = [] from howing]
        exact Pairs.nil
    | refused | throws => trivial
    | check | read chunk => exact hquiet howing
  | ended => cases event <;> trivial
  | waiting reading preRoll aboveMs =>
      cases reading with
      | false => cases event with
        | check =>
            cases running with
            | true => exact hquiet howing
            | false => trivial
        | opened | refused | throws | read chunk => exact hquiet howing
      | true => cases event with
        | read chunk =>
            unfold hear ListenThread.step
            dsimp only
            split
            · exact hquiet howing
            · exact hearWaiting_owing armed preRoll aboveMs chunk howing
        | throws => trivial
        | opened | refused | check => exact hquiet howing
  | capturing reading capture capturedMs belowMs =>
      cases reading with
      | false => cases event with
        | check =>
            cases running with
            | true => exact hquiet howing
            | false => trivial
        | opened | refused | throws | read chunk => exact hquiet howing
      | true => cases event with
        | read chunk =>
            unfold hear ListenThread.step
            dsimp only
            split
            · exact hquiet howing
            · exact hearCapturing_owing capture capturedMs belowMs chunk howing
        | throws => trivial
        | opened | refused | check => exact hquiet howing

theorem listenLoop_owing (run : List ListenInput) : Owing (listenLoop run) :=
  listenLoop_invariant Owing rfl hear_owing run

/-! ## How a run ends -/

/-- The flag is seen to be off in the middle of an utterance. -/
def StoppedMidUtterance (run : List ListenInput) : Prop :=
  ∃ before i rest capture capturedMs belowMs, run = before ++ i :: rest ∧
    (listenLoop before).1 = .capturing false capture capturedMs belowMs ∧
    i.running = false ∧ i.event = .check

/-- Something throws between utterances, after one of them. -/
def FailedAfterUtterance (run : List ListenInput) : Prop :=
  ∃ before i rest preRoll aboveMs, run = before ++ i :: rest ∧
    (listenLoop before).1 = .waiting true preRoll aboveMs ∧ i.event = .throws ∧
    (listenLoop before).2 ≠ []

/-- All starts are answered, or there is a failure and no start. -/
def Clean (log : List PostedCallback) : Prop :=
  Pairs asks log ∨ ∃ message, log = [.listenFailed message]

/-- A step that ends the thread ends the run. -/
theorem listenLoop_last (hrun : run = before ++ i :: rest)
    (hend : (hear (listenLoop before) i).1 = .ended) :
    listenLoop run = hear (listenLoop before) i := by
  rw [← listenLoop_concat] at hend ⊢
  rw [hrun, ← listenLoop_ended hend rest, List.append_assoc]
  rfl

theorem StoppedMidUtterance.posts (h : StoppedMidUtterance run) :
    ∃ before, (listenLoop run).2 = before ++ [.speechStarted] ∧ Pairs asks before := by
  obtain ⟨before, ⟨running, armed, event⟩, rest, capture, capturedMs, belowMs, hrun, hl,
    hoff, hcheck⟩ := h
  cases hoff
  cases hcheck
  have howing := listenLoop_owing before
  cases hheard : listenLoop before with
  | mk l log =>
      rw [hheard] at hl howing
      cases hl
      have hlast := listenLoop_last hrun (by rw [hheard]; rfl)
      rw [hheard] at hlast
      obtain ⟨answered, hlog, hpairs⟩ := howing
      refine ⟨answered, ?_, hpairs⟩
      rw [hlast, ← hlog]
      exact List.append_nil log

theorem FailedAfterUtterance.posts (h : FailedAfterUtterance run) :
    ∃ before message, (listenLoop run).2 = before ++ [.listenFailed message] ∧ Pairs asks before ∧
      before ≠ [] := by
  obtain ⟨before, ⟨running, armed, event⟩, rest, preRoll, aboveMs, hrun, hl, hthrows, hposted⟩ := h
  cases hthrows
  have howing := listenLoop_owing before
  cases hheard : listenLoop before with
  | mk l log =>
      rw [hheard] at hl howing hposted
      cases hl
      have hlast := listenLoop_last hrun (by rw [hheard]; rfl)
      rw [hheard] at hlast
      exact ⟨log, "Recording failed.", congrArg Prod.snd hlast, howing, hposted⟩

theorem hearWaiting_goes (armed : Bool) (preRoll : List Clip) (aboveMs : Nat) (chunk : Clip) :
    (hearWaiting armed preRoll aboveMs chunk).1 ≠ .ended := by
  rcases hearWaiting_spec armed preRoll aboveMs chunk with heq | ⟨preRoll', _, ⟨_, _, heq⟩ | ⟨above,
    _, _, _, heq⟩⟩
  all_goals
    rw [heq]
    exact fun h => nomatch h

theorem hearCapturing_goes (capture : Clip) (capturedMs belowMs : Nat) (chunk : Clip) :
    (hearCapturing capture capturedMs belowMs chunk).1 ≠ .ended := by
  obtain ⟨below, _, ⟨_, heq⟩ | ⟨_, heq⟩⟩ := hearCapturing_spec capture capturedMs belowMs chunk
  all_goals
    rw [heq]
    exact fun h => nomatch h

/-- **How the loop ends**: its flag is off, or something throws. -/
theorem step_ended {running armed : Bool} {event : ListenEvent} (hl : l ≠ .ended)
    (h : (l.step running armed event).thread = .ended) :
    ((l.step running armed event).posts = [] ∧ running = false ∧ event = .check ∧
        ((∃ preRoll aboveMs, l = .waiting false preRoll aboveMs) ∨
          ∃ capture capturedMs belowMs, l = .capturing false capture capturedMs belowMs)) ∨
      ∃ message, (l.step running armed event).posts = [.listenFailed message] ∧
        (l = .opening ∨ (event = .throws ∧ ((∃ preRoll aboveMs, l = .waiting true preRoll aboveMs) ∨
          ∃ capture capturedMs belowMs, l = .capturing true capture capturedMs belowMs))) := by
  cases l with
  | ended => exact absurd rfl hl
  | opening => cases event with
    | refused => exact .inr ⟨_, rfl, .inl rfl⟩
    | throws => exact .inr ⟨_, rfl, .inl rfl⟩
    | opened | check | read chunk => exact nomatch h
  | waiting reading preRoll aboveMs =>
      cases reading with
      | false => cases event with
        | check =>
            cases running with
            | true => exact nomatch h
            | false => exact .inl ⟨rfl, rfl, rfl, .inl ⟨_, _, rfl⟩⟩
        | opened | refused | throws | read chunk => exact nomatch h
      | true => cases event with
        | throws => exact .inr ⟨_, rfl, .inr ⟨rfl, .inl ⟨_, _, rfl⟩⟩⟩
        | read chunk =>
            unfold ListenThread.step at h
            dsimp only at h
            split at h
            · exact nomatch h
            · exact absurd h (hearWaiting_goes armed preRoll aboveMs chunk)
        | opened | refused | check => exact nomatch h
  | capturing reading capture capturedMs belowMs =>
      cases reading with
      | false => cases event with
        | check =>
            cases running with
            | true => exact nomatch h
            | false => exact .inl ⟨rfl, rfl, rfl, .inr ⟨_, _, _, rfl⟩⟩
        | opened | refused | throws | read chunk => exact nomatch h
      | true => cases event with
        | throws => exact .inr ⟨_, rfl, .inr ⟨rfl, .inr ⟨_, _, _, rfl⟩⟩⟩
        | read chunk =>
            unfold ListenThread.step at h
            dsimp only at h
            split at h
            · exact nomatch h
            · exact absurd h (hearCapturing_goes capture capturedMs belowMs chunk)
        | opened | refused | check => exact nomatch h

/-- **How a run ends**: by the flag in an utterance, by an exception after one, or clean. -/
theorem ended_cases (hended : (listenLoop run).1 = .ended) :
    StoppedMidUtterance run ∨ FailedAfterUtterance run ∨ Clean (listenLoop run).2 := by
  obtain ⟨before, ⟨running, armed, event⟩, rest, hrun, hopen, hend, hlast⟩ := listenLoop_ends hended
  have howing := listenLoop_owing before
  have hlog : (listenLoop run).2
      = (listenLoop before).2 ++ ((listenLoop before).1.step running armed event).posts := by
    rw [hlast]
    rfl
  rw [hlog]
  rcases step_ended hopen hend with ⟨hposts, hoff, hcheck, ⟨preRoll, aboveMs, hl⟩ | ⟨capture,
    capturedMs, belowMs, hl⟩⟩ | ⟨message, hposts, hl | ⟨hthrows, ⟨preRoll, aboveMs, hl⟩ | ⟨capture,
    capturedMs, belowMs, hl⟩⟩⟩
  all_goals
    rw [hposts]
    rw [← Prod.mk.eta (p := listenLoop before), hl] at howing
  · right; right; left
    rw [List.append_nil]
    exact howing
  · exact .inl ⟨before, _, rest, capture, capturedMs, belowMs, hrun, hl, hoff, hcheck⟩
  · have hempty : (listenLoop before).2 = [] := howing
    rw [hempty]
    exact .inr (.inr (.inr ⟨message, rfl⟩))
  · by_cases hempty : (listenLoop before).2 = []
    · rw [hempty]
      exact .inr (.inr (.inr ⟨message, rfl⟩))
    · exact .inr (.inl ⟨before, _, rest, preRoll, aboveMs, hrun, hl, hthrows, hempty⟩)
  · -- the failure is the answer of the last start
    obtain ⟨answered, hanswered, hpairs⟩ := howing
    right; right; left
    rw [hanswered, List.append_assoc]
    exact hpairs.push rfl rfl

/-! ## The posture -/

/-- What the recorder posts. -/
def ofRecorder : PostedCallback → Bool
  | .speechStarted | .speechCaptured _ | .speechRejected | .listenFailed _ => true
  | _ => false

theorem ofRecorder_finish (pcm : Clip) (durationMs : Nat) :
    ofRecorder (finishUtterance pcm durationMs) = true := by
  unfold finishUtterance
  split <;> rfl

theorem step_ofRecorder (l : ListenThread) (running armed : Bool) (event : ListenEvent) :
    ∀ callback ∈ (l.step running armed event).posts, ofRecorder callback = true := by
  have hnone : ∀ callback ∈ ([] : List PostedCallback), ofRecorder callback = true :=
    fun _ h => nomatch h
  have hone : ∀ {callback : PostedCallback}, ofRecorder callback = true →
      ∀ c ∈ [callback], ofRecorder c = true := fun h c hc => List.mem_singleton.mp hc ▸ h
  unfold ListenThread.step
  split
  · exact hnone
  · exact hone rfl
  · exact hone rfl
  · exact hone rfl
  · exact hone rfl
  · split <;> exact hnone
  · split <;> exact hnone
  · split
    · exact hnone
    · rename_i preRoll aboveMs chunk _
      dsimp only
      rcases hearWaiting_spec armed preRoll aboveMs chunk with heq | ⟨preRoll', _, ⟨_, _, heq⟩ |
        ⟨above, _, _, _, heq⟩⟩
      all_goals rw [heq]
      · exact hnone
      · exact hone rfl
      · exact hnone
  · split
    · exact hnone
    · rename_i capture capturedMs belowMs chunk _
      dsimp only
      obtain ⟨below, _, ⟨_, heq⟩ | ⟨_, heq⟩⟩ := hearCapturing_spec capture capturedMs belowMs chunk
      all_goals rw [heq]
      · exact hone (ofRecorder_finish _ _)
      · exact hnone
  · exact hnone

theorem listenLoop_ofRecorder (run : List ListenInput) :
    ∀ callback ∈ (listenLoop run).2, ofRecorder callback = true := by
  refine listenLoop_invariant (fun h => ∀ callback ∈ h.2, ofRecorder callback = true)
    (fun _ h => nomatch h) ?_ run
  intro h i hall callback hmem
  rcases List.mem_append.mp hmem with hbefore | hnew
  · exact hall callback hbefore
  · exact step_ofRecorder h.1 i.running i.armed i.event callback hnew

/-- The companion after the callbacks, in their order. -/
def Companion.runAll (s : Companion) (urlOk : Bool) (log : List PostedCallback) : Companion :=
  log.foldl (fun s callback => s.run urlOk callback) s

theorem runAll_push (s : Companion) (urlOk : Bool) (log : List PostedCallback)
    (callback : PostedCallback) :
    s.runAll urlOk (log ++ [callback]) = (s.runAll urlOk log).run urlOk callback := by
  unfold Companion.runAll
  rw [List.foldl_append]
  rfl

/-- An answer leaves the posture. -/
theorem callback_answer (s : Companion) (urlOk : Bool) {callback : PostedCallback}
    (hasks : asks callback = false) (hof : ofRecorder callback = true) :
    (s.run urlOk callback).status ≠ .listening := by
  cases callback with
  | speechStarted => exact nomatch hasks
  | speechCaptured clip => cases urlOk <;> exact fun h => nomatch h
  | speechRejected => exact fun h => nomatch h
  | listenFailed message => exact fun h => nomatch h
  | recorded | recordFailed | playbackFinished | playbackFailed => exact nomatch hof

/-- Pairs end with an answer. -/
theorem runAll_pairs {log : List PostedCallback} (h : Pairs asks log) {s : Companion} (urlOk : Bool)
    (hs : s.status ≠ .listening) (hof : ∀ callback ∈ log, ofRecorder callback = true) :
    (s.runAll urlOk log).status ≠ .listening := by
  induction h generalizing s with
  | nil => exact hs
  | @cons a c log _ hc _ ih =>
      have hanswer : ofRecorder c = true := hof c (List.mem_cons_of_mem a List.mem_cons_self)
      refine ih (s := (s.run urlOk a).run urlOk c) (callback_answer _ urlOk hc hanswer) ?_
      exact fun d hd => hof d (List.mem_cons_of_mem a (List.mem_cons_of_mem c hd))

/-- **When every speech start is answered.** For every run of the loop that has ended, whatever the
chunks, the gate, the microphone and `stop()` did: each start is answered, and the listening posture
is left again, exactly if the flag was not seen to be off in the middle of an utterance. It is
answered exactly once exactly if, besides, nothing threw after an earlier utterance, which adds a
failure to its answer. -/
theorem starts_answered_iff (run : List ListenInput) (s : Companion) (urlOk : Bool)
    (hs : s.status ≠ .listening) (hended : (listenLoop run).1 = .ended) :
    (Answered asks (listenLoop run).2 ↔ ¬ StoppedMidUtterance run) ∧
    ((s.runAll urlOk (listenLoop run).2).status ≠ .listening ↔ ¬ StoppedMidUtterance run) ∧
    (AnsweredOnce asks (listenLoop run).2 ↔
      ¬ StoppedMidUtterance run ∧ ¬ FailedAfterUtterance run) := by
  have hof := listenLoop_ofRecorder run
  -- stopped in an utterance: its start is the last callback
  have hstopped : StoppedMidUtterance run → ¬ Answered asks (listenLoop run).2 ∧
      (s.runAll urlOk (listenLoop run).2).status = .listening := by
    intro h
    obtain ⟨before, hlog, hpairs⟩ := h.posts
    rw [hlog, runAll_push]
    exact ⟨hpairs.unanswered rfl, rfl⟩
  -- failed after an utterance: that is answered, and then the failure is posted
  have hfailed : FailedAfterUtterance run → Answered asks (listenLoop run).2 ∧
      (s.runAll urlOk (listenLoop run).2).status ≠ .listening ∧
      ¬ AnsweredOnce asks (listenLoop run).2 := by
    intro h
    obtain ⟨before, message, hlog, hpairs, hbefore⟩ := h.posts
    rw [hlog, runAll_push]
    refine ⟨hpairs.answered_answer rfl, callback_answer _ urlOk rfl rfl, fun hone => ?_⟩
    exact hbefore ((hpairs.answeredOnce_answer rfl).mp hone)
  -- ended otherwise: pairs of a start and its answer, or nothing but a failure
  have hclean : Clean (listenLoop run).2 → AnsweredOnce asks (listenLoop run).2 ∧
      (s.runAll urlOk (listenLoop run).2).status ≠ .listening := by
    rintro (hpairs | ⟨message, hlog⟩)
    · exact ⟨hpairs.answeredOnce, runAll_pairs hpairs urlOk hs hof⟩
    · rw [hlog]
      exact ⟨(Pairs.nil.answeredOnce_answer rfl).mpr rfl, fun h => nomatch h⟩
  rcases ended_cases hended with h | h | h
  · obtain ⟨hnot, hposture⟩ := hstopped h
    refine ⟨iff_of_false hnot fun hno => hno h,
      iff_of_false (fun hno => hno hposture) fun hno => hno h,
      iff_of_false (fun hone => hnot hone.answered) fun hno => hno.1 h⟩
  · obtain ⟨hanswered, hposture, hmore⟩ := hfailed h
    have hleft : ¬ StoppedMidUtterance run := fun hstop => (hstopped hstop).1 hanswered
    exact ⟨iff_of_true hanswered hleft, iff_of_true hposture hleft,
      iff_of_false hmore fun hno => hno.2 h⟩
  · obtain ⟨hone, hposture⟩ := hclean h
    have hleft : ¬ StoppedMidUtterance run := fun hstop => (hstopped hstop).1 hone.answered
    exact ⟨iff_of_true hone.answered hleft, iff_of_true hposture hleft,
      iff_of_true hone ⟨hleft, fun hfail => (hfailed hfail).2.2 hone⟩⟩

/-! ## Switched off while talking -/

/-- A full chunk of one byte. -/
@[irreducible] def toneChunk (b : UInt8) : Clip := List.replicate 960 b

/-- A pass that reads the chunk, the gate being armed. -/
def hearChunk (chunk : Clip) : List ListenInput :=
  [⟨true, true, .check⟩, ⟨true, true, .read chunk⟩]

/-- So many loud chunks and then so many silent ones. -/
def talking (loud silent : Nat) : List ListenInput :=
  ⟨true, true, .opened⟩ :: ((List.replicate loud (hearChunk (toneChunk 127))).flatten ++
    (List.replicate silent (hearChunk (toneChunk 0))).flatten)

/-- A microphone that fails in the middle of an utterance. -/
def failing : List ListenInput := talking 5 0 ++ [⟨true, true, .check⟩, ⟨true, true, .throws⟩]

/-- Hands-free listening that is switched off in the middle of one. -/
def switchedOff : List ListenInput := talking 5 0 ++ [⟨false, true, .check⟩]

/-- The failure answers, and no posture is left behind. -/
theorem failure_answers : Answered asks (listenLoop failing).2 ∧
    (({} : Companion).runAll true (listenLoop failing).2).status ≠ .listening := by
  have hnever : ¬ StoppedMidUtterance failing := by
    rintro ⟨before, i, rest, _, _, _, hrun, _, hoff, _⟩
    have hmem : i ∈ failing := by
      rw [hrun]
      exact List.mem_append_right _ List.mem_cons_self
    have hon : ∀ i ∈ failing, i.running = true := by decide +kernel
    rw [hon i hmem] at hoff
    exact nomatch hoff
  have hended : (listenLoop failing).1 = .ended := by decide +kernel
  obtain ⟨hanswered, hposture, _⟩ := starts_answered_iff failing {} true (by decide) hended
  exact ⟨hanswered.mpr hnever, hposture.mpr hnever⟩

/-- The start stays without an answer. -/
theorem switched_off_unanswered : (listenLoop switchedOff).1 = .ended ∧
    ¬ AnsweredOnce asks (listenLoop switchedOff).2 ∧
    (({} : Companion).runAll true (listenLoop switchedOff).2).status = .listening := by
  have hlog : (listenLoop switchedOff).2 = [.speechStarted] := by decide +kernel
  refine ⟨by decide +kernel, ?_, ?_⟩
  · rw [hlog]
    exact fun hone => Pairs.nil.unanswered rfl hone.answered
  · rw [hlog]
    rfl

end HumanGate
