import Mathlib
import HumanGate.Model.LeonSpeech
import HumanGate.Companion.Attention

set_option autoImplicit false

/-! # What Leon says

Leon is shown speaking only while an utterance is active, which is the last one that the engine was
given. The engine is given texts that were asked for, in the order they were asked for. -/

namespace HumanGate

open Lib

/-! ## The shared state -/

/-- Leon is shown speaking, or goes back to it. -/
def LeonStateController.Speaking (c : LeonStateController) : Prop :=
  c.state = .speaking ∨ c.restoreState = .speaking

section Speaking

variable {c : LeonStateController}

/-- Once Leon is idle he does not speak. -/
theorem request_idle_speaking (hc : c.Sound) : ¬ (c.request .idle).Speaking := by
  have hidle : LeonState.idle.Plain := ⟨by decide, by decide⟩
  by_cases h : LeonState.idle = c.state
  · rw [h, request_self]
    have hrestore := (hc.plain (h ▸ hidle)).1
    rintro (hstate | hback)
    · rw [← h] at hstate
      cases hstate
    · rw [hrestore, ← h] at hback
      cases hback
  · rw [request_plain hidle h]
    rintro (hstate | hback)
    · cases hstate
    · cases hback

/-- A state other than speaking is requested. -/
theorem request_speaking {next : LeonState} (hc : c.Sound) (hnext : next ≠ .speaking)
    (h : (c.request next).Speaking) : c.Speaking := by
  by_cases hsame : next = c.state
  · rwa [hsame, request_self] at h
  by_cases hplain : next.Plain
  · rw [request_plain hplain hsame] at h
    rcases h with h | h
    · exact absurd h hnext
    · exact absurd h hnext
  · have hpassing : next = .attention ∨ next = .minimised := by
      unfold LeonState.Plain at hplain
      tauto
    rw [request_passing hc hpassing hsame] at h
    rcases h with h | h
    · exact absurd h hnext
    · exact .inr h

theorem update_speaking {dt : ℚ} (hc : c.Sound) (h : (c.update dt).Speaking) : c.Speaking := by
  unfold LeonStateController.update at h
  split at h
  · exact h
  simp only at h
  split at h
  · exact h
  split at h
  · rename_i hatt
    have hstate : c.state = .attention := of_decide_eq_true hatt
    have hback : LeonState.isTransient c.restoreState = false := decide_eq_false hc.restore.1
    simp only [hback, Bool.false_eq_true, if_false] at h
    rw [request_plain hc.restore (by simpa [hstate] using hc.restore.1)] at h
    rcases h with h | h
    · exact .inr h
    · exact .inr h
  · exact h

end Speaking

theorem restore_speaking {c : LeonStateController} (hc : c.Sound) (h : c.restore.Speaking) :
    c.Speaking := by
  rw [restore_eq hc] at h
  by_cases hback : c.restoreState = .speaking
  · exact .inr hback
  · exact request_speaking hc hback h

theorem Gesture.exec_speaking {c : LeonStateController} {g : Gesture} (hc : c.Sound)
    (hg : ∀ next, g = .request next → next ≠ .speaking) (h : (g.exec c).Speaking) : c.Speaking := by
  cases g with
  | request next => exact request_speaking hc (hg next rfl) h
  | toggleMinimised =>
      unfold Gesture.exec LeonStateController.toggleMinimised at h
      simp only at h
      split at h
      · exact restore_speaking hc h
      · exact request_speaking hc (by decide) h
  | restore => exact restore_speaking hc h
  | poke =>
      unfold Gesture.exec LeonStateController.poke at h
      simp only at h
      split at h
      · exact h
      · exact request_speaking hc (by decide) h
  | tick now =>
      unfold Gesture.exec LeonStateController.tick at h
      simp only at h
      split at h
      · exact h
      · have hclock : LeonStateController.Sound { c with lastTickNanos := now } :=
          ⟨hc.restore, hc.plain, hc.attention, hc.timer⟩
        have hspeak : LeonStateController.Speaking { c with lastTickNanos := now } :=
          update_speaking hclock h
        exact hspeak

theorem Gesture.exec_sound {s : LeonSpeech} {g : Gesture} (hs : s.states.Sound)
    (hg : speech.allowed s (.gesture g)) : (g.exec s.states).Sound := by
  cases g with
  | request next => exact (request_becomes hs next).sound
  | toggleMinimised => exact (toggleMinimised_becomes hs).sound
  | restore => exact (restore_becomes hs).sound
  | poke => exact (poke_becomes hs).sound
  | tick now => exact (tick_becomes hs hg).sound

/-! ## The controller of the voice -/

namespace LeonSpeech

/-- An active utterance is the last one that the engine was given, and Leon speaks only while there
is one. A text waits only until the engine is ready. -/
structure Inv (s : LeonSpeech) : Prop where
  sound : s.states.Sound
  speaking : s.states.Speaking → s.activeUtteranceId ≠ none
  status : s.released = false → s.status = .speaking → s.activeUtteranceId ≠ none
  active : ∀ id, s.activeUtteranceId = some id →
    s.ready = true ∧ s.released = false ∧ s.spoken.getLast?.map Prod.fst = some id
  pending : s.pendingText ≠ none → s.ready = false ∧ s.released = false

variable {s : LeonSpeech}

/-- No utterance is active any more, and Leon is idle. -/
theorem Inv.settle {t : LeonSpeech} (hsound : t.states.Sound) (hnone : t.activeUtteranceId = none)
    (hpending : t.pendingText ≠ none → t.ready = false ∧ t.released = false)
    (hstatus : t.released = false → t.status ≠ .speaking) : (t.request .idle).Inv := by
  refine ⟨(request_becomes hsound _).sound, fun hspeak => ?_, fun hrel hspeak => ?_,
    fun id hid => ?_, hpending⟩
  · exact absurd hspeak (request_idle_speaking hsound)
  · exact absurd hspeak (hstatus hrel)
  · have hid' : t.activeUtteranceId = some id := hid
    rw [hnone] at hid'
    cases hid'

/-- The same, with the status that is shown. -/
theorem Inv.settleAs {t : LeonSpeech} {next : SpeechStatus} (detail : String)
    (hsound : t.states.Sound) (hnone : t.activeUtteranceId = none)
    (hpending : t.pendingText ≠ none → t.ready = false ∧ t.released = false)
    (hnext : next ≠ .speaking) : ((t.request .idle).setStatus next detail).Inv := by
  have h : (({ t with status := next, detail := some detail } : LeonSpeech).request .idle).Inv :=
    .settle hsound hnone hpending fun _ => hnext
  exact ⟨h.sound, h.speaking, h.status, h.active, h.pending⟩

theorem speakReady_inv (hsound : s.states.Sound) (hready : s.ready = true)
    (hrel : s.released = false) (hpending : s.pendingText = none) (reply : EngineReply)
    (text : String) : (s.speakReady reply text).Inv := by
  have hwaits : s.pendingText ≠ none → s.ready = false ∧ s.released = false := fun h =>
    absurd hpending h
  unfold speakReady
  simp only
  split
  · refine ⟨hsound, fun _ => Option.some_ne_none _, fun _ _ => Option.some_ne_none _, ?_, hwaits⟩
    intro id hid
    refine ⟨hready, hrel, ?_⟩
    rw [← hid]
    simp
  · exact .settleAs _ hsound rfl hwaits (by decide)

theorem runInit_inv (h : s.Inv) (reply : EngineReply) (success : Bool) :
    (s.runInit reply success).Inv := by
  have hfail : ∀ message, s.released = false → (s.fail message).Inv := fun message hrel =>
    .settleAs message h.sound rfl (fun _ => ⟨rfl, hrel⟩) (by decide)
  unfold runInit
  split
  · exact h
  rename_i hrel
  rw [Bool.not_eq_true] at hrel
  split
  · exact hfail _ hrel
  split
  · exact hfail _ hrel
  simp only
  split
  · rename_i hnone
    refine ⟨h.sound, h.speaking, fun _ hspeak => (nomatch hspeak), fun id hid => ?_, fun hne => ?_⟩
    · exact ⟨rfl, hrel, (h.active id hid).2.2⟩
    · exact absurd hnone hne
  · refine speakReady_inv ?_ ?_ ?_ ?_ reply _
    · exact h.sound
    · rfl
    · exact hrel
    · rfl

theorem runStart_inv (h : s.Inv) (utteranceId : Option UtteranceId) :
    (s.runStart utteranceId).Inv := by
  unfold runStart
  split
  · exact h
  rename_i hactive
  have hsome : s.activeUtteranceId ≠ none := by
    unfold isActive at hactive
    simp only [Bool.not_eq_true', Bool.not_eq_false, Bool.and_eq_true, decide_eq_true_eq] at hactive
    obtain ⟨⟨_, hsome⟩, heq⟩ := hactive
    rw [← heq]
    exact Option.isSome_iff_ne_none.mp hsome
  exact ⟨(request_becomes h.sound _).sound, fun _ => hsome, fun _ _ => hsome, h.active, h.pending⟩

theorem runFinish_inv (h : s.Inv) (utteranceId : Option UtteranceId) (error : Option String) :
    (s.runFinish utteranceId error).Inv := by
  unfold runFinish
  split
  · exact h
  cases error with
  | some error => exact .settleAs error h.sound rfl h.pending (by decide)
  | none => exact .settleAs _ h.sound rfl h.pending (by decide)

theorem runSpeak_inv (h : s.Inv) (reply : EngineReply) (text : String) :
    (s.runSpeak reply text).Inv := by
  unfold runSpeak
  split
  · exact h
  rename_i hrel
  rw [Bool.not_eq_true] at hrel
  split
  · rename_i hready
    have hready : s.ready = false := by simpa using hready
    refine ⟨h.sound, h.speaking, fun _ hspeak => (nomatch hspeak), h.active, fun _ => ?_⟩
    exact ⟨hready, hrel⟩
  · rename_i hready
    have hready : s.ready = true := by simpa using hready
    have hnone : s.pendingText = none := by
      by_contra hsome
      rw [(h.pending hsome).1] at hready
      cases hready
    exact speakReady_inv h.sound hready hrel hnone reply text

theorem runStop_inv (h : s.Inv) : s.runStop.Inv := by
  unfold runStop
  split
  · exact h
  simp only
  split
  · exact .settleAs _ h.sound rfl (fun hne => absurd rfl hne) (by decide)
  · exact .settleAs _ h.sound rfl (fun hne => absurd rfl hne) (by decide)

theorem runShutdown_inv (h : s.Inv) : s.runShutdown.Inv := by
  unfold runShutdown
  split
  · exact h
  · exact .settle h.sound rfl (fun hne => absurd rfl hne) fun hrel => (nomatch hrel)

theorem run_inv (h : s.Inv) (reply : EngineReply) (p : SpeechPost) : (s.run reply p).Inv := by
  cases p with
  | onInit success => exact runInit_inv h reply success
  | onStart utteranceId => exact runStart_inv h utteranceId
  | finish utteranceId error => exact runFinish_inv h utteranceId error
  | speak text => exact runSpeak_inv h reply text
  | stop => exact runStop_inv h
  | shutdown => exact runShutdown_inv h

theorem Inv.reposted (h : s.Inv) (posted : List SpeechPost) :
    ({ s with posted := posted } : LeonSpeech).Inv :=
  ⟨h.sound, h.speaking, h.status, h.active, h.pending⟩

theorem runPosted_inv (h : s.Inv) (reply : EngineReply) : (s.runPosted reply).Inv := by
  unfold runPosted
  split
  · exact h
  · exact run_inv (h.reposted _) reply _

theorem exec_inv (h : s.Inv) {o : SpeechOp} (ho : speech.allowed s o) : (o.exec s).Inv := by
  cases o with
  | speak text =>
      unfold SpeechOp.exec
      simp only
      split
      · exact h
      · exact h.reposted _
  | stop => exact h.reposted _
  | shutdown => exact h.reposted _
  | engineInit success => exact h.reposted _
  | engineStart utteranceId => exact h.reposted _
  | engineFinish utteranceId error => exact h.reposted _
  | runPosted reply => exact runPosted_inv h reply
  | gesture g =>
      refine ⟨Gesture.exec_sound h.sound ho, fun hspeak => h.speaking ?_, h.status, h.active,
        h.pending⟩
      refine Gesture.exec_speaking h.sound (fun next hg => ?_) hspeak
      subst hg
      exact ho

/-! ### The order of the texts -/

/-- The text that a post asks for. -/
def textOf : SpeechPost → Option String
  | .speak text => some text
  | _ => none

/-- What the engine was given, what waits for it and what is posted. -/
def texts (s : LeonSpeech) : List String :=
  s.spoken.map Prod.snd ++ s.pendingText.toList ++ s.posted.filterMap textOf

/-- What is on its way can only be dropped. -/
theorem texts_sublist {s t : LeonSpeech} (hposted : t.posted = s.posted)
    (h : (t.spoken.map Prod.snd ++ t.pendingText.toList).Sublist
      (s.spoken.map Prod.snd ++ s.pendingText.toList)) : t.texts.Sublist s.texts := by
  unfold texts
  rw [hposted]
  exact h.append_right _

theorem speakReady_posted (reply : EngineReply) (text : String) :
    (s.speakReady reply text).posted = s.posted ∧
    (s.speakReady reply text).pendingText = s.pendingText ∧
    (s.speakReady reply text).spoken.map Prod.snd = s.spoken.map Prod.snd ++ [text] := by
  unfold speakReady
  simp only
  split
  · exact ⟨rfl, rfl, by simp⟩
  · exact ⟨rfl, rfl, by simp [request, setStatus]⟩

theorem runInit_texts (reply : EngineReply) (success : Bool) :
    (s.runInit reply success).texts.Sublist s.texts := by
  unfold runInit
  split
  · exact List.Sublist.refl _
  split
  · exact texts_sublist rfl (List.Sublist.refl _)
  split
  · exact texts_sublist rfl (List.Sublist.refl _)
  simp only
  split
  · exact texts_sublist rfl (List.Sublist.refl _)
  · rename_i queued hqueued
    have hpending : s.pendingText = some queued := hqueued
    refine texts_sublist (speakReady_posted reply queued).1 ?_
    rw [(speakReady_posted reply queued).2.2, (speakReady_posted reply queued).2.1, hpending]
    change (s.spoken.map Prod.snd ++ [queued] ++ []).Sublist _
    rw [List.append_nil]
    exact List.Sublist.refl _

/-- The text at the head of the queue is spoken, waits or is dropped. -/
theorem runSpeak_texts (h : s.Inv) (reply : EngineReply) (text : String) :
    (s.runSpeak reply text).texts.Sublist
      (s.spoken.map Prod.snd ++ s.pendingText.toList ++ (text :: s.posted.filterMap textOf)) := by
  unfold runSpeak texts
  split
  · exact (List.sublist_cons_self text _).append_left _
  split
  · -- it takes the place of the one that waits
    change (s.spoken.map Prod.snd ++ [text] ++ s.posted.filterMap textOf).Sublist _
    rw [List.append_assoc, List.append_assoc]
    exact (List.sublist_append_right _ _).append_left _
  · rename_i hready
    have hready : s.ready = true := by simpa using hready
    have hnone : s.pendingText = none := by
      by_contra hsome
      rw [(h.pending hsome).1] at hready
      cases hready
    obtain ⟨hposted, hpending, hspoken⟩ := s.speakReady_posted reply text
    rw [hposted, hpending, hspoken, hnone]
    simp

theorem run_texts {p : SpeechPost} (h : s.Inv) (reply : EngineReply) :
    (s.run reply p).texts.Sublist
      (s.spoken.map Prod.snd ++ s.pendingText.toList ++ (p :: s.posted).filterMap textOf) := by
  cases p with
  | speak text => exact runSpeak_texts h reply text
  | onInit success => exact runInit_texts reply success
  | onStart utteranceId =>
      refine texts_sublist (s := s) ?_ ?_ <;> unfold run runStart <;> simp only <;> split
      · rfl
      · rfl
      · exact List.Sublist.refl _
      · exact List.Sublist.refl _
  | finish utteranceId error =>
      refine texts_sublist (s := s) ?_ ?_ <;> unfold run runFinish <;> simp only <;> split
      · rfl
      · cases error <;> rfl
      · exact List.Sublist.refl _
      · cases error <;> exact List.Sublist.refl _
  | stop =>
      refine texts_sublist (s := s) ?_ ?_ <;> unfold run runStop <;> simp only <;> split
      · rfl
      · split <;> rfl
      · exact List.Sublist.refl _
      · split <;> exact (List.nil_sublist _).append_left _
  | shutdown =>
      refine texts_sublist (s := s) ?_ ?_ <;> unfold run runShutdown <;> simp only <;> split
      · rfl
      · rfl
      · exact List.Sublist.refl _
      · exact (List.nil_sublist _).append_left _

theorem exec_texts (h : s.Inv) (o : SpeechOp) :
    (o.exec s).texts.Sublist (s.texts ++ acceptedBy s o) := by
  have hpost : ∀ p, textOf p = none → (s.post p).texts.Sublist (s.texts ++ []) := by
    intro p hp
    unfold texts post
    simp [hp]
  cases o with
  | speak text =>
      unfold SpeechOp.exec acceptedBy
      simp only
      cases hacc : s.accepts text with
      | none =>
          rw [Option.toList_none, List.append_nil]
      | some spoken =>
          have htexts : (s.post (.speak spoken)).texts = s.texts ++ [spoken] := by
            unfold texts post
            simp [textOf]
          rw [Option.toList_some, htexts]
  | stop => exact hpost _ rfl
  | shutdown => exact hpost _ rfl
  | engineInit success => exact hpost _ rfl
  | engineStart utteranceId => exact hpost _ rfl
  | engineFinish utteranceId error => exact hpost _ rfl
  | gesture g =>
      change s.texts.Sublist (s.texts ++ [])
      rw [List.append_nil]
  | runPosted reply =>
      change (s.runPosted reply).texts.Sublist (s.texts ++ [])
      rw [List.append_nil]
      unfold runPosted
      split
      · exact List.Sublist.refl _
      · rename_i p rest hposted
        have htexts : s.texts = s.spoken.map Prod.snd ++ s.pendingText.toList ++
            (p :: rest).filterMap textOf := by
          unfold texts
          rw [hposted]
        rw [htexts]
        exact run_texts (h.reposted rest) reply

/-! ### After the shutdown -/

/-- A released controller hears nothing any more. -/
theorem exec_released (h : s.released = true) (o : SpeechOp) :
    (o.exec s).released = true ∧ (o.exec s).spoken = s.spoken ∧ (o.exec s).status = s.status := by
  cases o with
  | speak text =>
      unfold SpeechOp.exec
      simp only
      split
      · exact ⟨h, rfl, rfl⟩
      · exact ⟨h, rfl, rfl⟩
  | runPosted reply =>
      change (s.runPosted reply).released = true ∧ (s.runPosted reply).spoken = _ ∧
        (s.runPosted reply).status = _
      unfold runPosted
      split
      · exact ⟨h, rfl, rfl⟩
      · rename_i p rest _
        cases p <;>
          simp [run, runInit, runStart, runFinish, runSpeak, runStop, runShutdown, isActive, h]
  | stop => exact ⟨h, rfl, rfl⟩
  | shutdown => exact ⟨h, rfl, rfl⟩
  | engineInit success => exact ⟨h, rfl, rfl⟩
  | engineStart utteranceId => exact ⟨h, rfl, rfl⟩
  | engineFinish utteranceId error => exact ⟨h, rfl, rfl⟩
  | gesture g => exact ⟨h, rfl, rfl⟩

theorem steps_released {t : LeonSpeech} (h : s.released = true) (hsteps : speech.Steps s t) :
    t.released = true ∧ t.spoken = s.spoken ∧ t.status = s.status := by
  induction hsteps with
  | refl => exact ⟨h, rfl, rfl⟩
  | step _ _ ih =>
      obtain ⟨hrel, hspoken, hstatus⟩ := ih
      obtain ⟨hrel', hspoken', hstatus'⟩ := exec_released hrel _
      exact ⟨hrel', hspoken'.trans hspoken, hstatus'.trans hstatus⟩

theorem initial_inv : initial.Inv := by
  refine ⟨⟨⟨by decide, by decide⟩, fun _ => ⟨rfl, rfl⟩, fun h => (nomatch h), le_refl _,
    attentionHoldSeconds_pos.le⟩, ?_, fun _ h => (nomatch h), fun _ h => (nomatch h),
    fun h => absurd rfl h⟩
  rintro (h | h) <;> cases h

theorem reachable_inv {s : LeonSpeech} (h : speech.Reachable s) : s.Inv := by
  refine System.Reachable.invariant (S := speech) ?_ (fun _ _ hi ho => exec_inv hi ho) h
  rintro s rfl
  exact initial_inv

end LeonSpeech

open LeonSpeech in
/-- **Leon speaks only what he was asked to say**, in the order he was asked, and none of it twice,
as long as no other part makes him speak. He is shown speaking only while the last text that the
engine was given is the active utterance, and after a shutdown he is never shown speaking again, nor
is the engine given a text. -/
theorem speech_sound {p : LeonSpeech × List String}
    (h : (speech.logged acceptedBy).Reachable p) :
    (p.1.states.Speaking → ∃ id text, p.1.activeUtteranceId = some id ∧
      p.1.spoken.getLast? = some (id, text) ∧ p.1.ready = true ∧ p.1.released = false) ∧
    (p.1.released = false → p.1.status = .speaking → p.1.activeUtteranceId ≠ none) ∧
    (p.1.spoken.map Prod.snd).Sublist p.2 ∧
    (p.1.released = true → ∀ t, speech.Steps p.1 t →
      t.spoken = p.1.spoken ∧ t.status = p.1.status ∧ ¬ t.states.Speaking) := by
  have hreach := System.Reachable.of_logged h
  have hinv := reachable_inv hreach
  have htexts : p.1.texts.Sublist p.2 := by
    have hboth : p.1.Inv ∧ p.1.texts.Sublist p.2 := by
      refine System.Reachable.invariant (S := speech.logged acceptedBy)
        (I := fun p => p.1.Inv ∧ p.1.texts.Sublist p.2) ?_ ?_ h
      · rintro ⟨s, log⟩ ⟨rfl, rfl⟩
        exact ⟨initial_inv, List.Sublist.refl _⟩
      · rintro ⟨s, log⟩ o ⟨hi, hsub⟩ ho
        exact ⟨exec_inv hi ho, (exec_texts hi o).trans (hsub.append_right _)⟩
    exact hboth.2
  refine ⟨fun hspeak => ?_, hinv.status, ?_, fun hrel t hsteps => ?_⟩
  · cases hid : p.1.activeUtteranceId with
    | none => exact absurd hid (hinv.speaking hspeak)
    | some id =>
        obtain ⟨hready, hrel, hlast⟩ := hinv.active id hid
        obtain ⟨⟨id', text⟩, hget, rfl⟩ := Option.map_eq_some_iff.mp hlast
        exact ⟨id', text, rfl, hget, hready, hrel⟩
  · -- what is spoken comes first among the texts that are kept
    refine List.Sublist.trans ?_ htexts
    unfold texts
    rw [List.append_assoc]
    exact List.sublist_append_left _ _
  · -- after a shutdown no utterance is active
    obtain ⟨hrel', hspoken, hstatus⟩ := steps_released hrel hsteps
    refine ⟨hspoken, hstatus, fun hspeak => ?_⟩
    have hinv' := reachable_inv (hreach.of_steps hsteps)
    cases hid : t.activeUtteranceId with
    | none => exact hinv'.speaking hspeak hid
    | some id =>
        have hfalse := (hinv'.active id hid).2.1
        rw [hrel'] at hfalse
        cases hfalse

/-- Two greetings before the engine is ready: the second one is spoken. -/
def greetingOps : List SpeechOp :=
  let reply : EngineReply := ⟨true, true, true⟩
  [.speak (some "Hello"), .speak (some " Good morning "), .engineInit true, .runPosted reply,
   .runPosted reply, .runPosted reply, .engineStart (some 1), .runPosted reply]

def greeting : LeonSpeech × List String :=
  greetingOps.foldl (speech.logged acceptedBy).exec (LeonSpeech.initial, [])

theorem greeting_spoken : ∃ id text, greeting.1.activeUtteranceId = some id ∧
    greeting.1.spoken.getLast? = some (id, text) ∧ greeting.1.ready = true ∧
    greeting.1.released = false := by
  have hreach : (speech.logged acceptedBy).Reachable greeting := by
    refine System.Reachable.of_legal (S := speech.logged acceptedBy) greetingOps
      (.init ⟨rfl, rfl⟩) ?_
    exact ⟨trivial, trivial, trivial, trivial, trivial, trivial, trivial, trivial, trivial⟩
  exact (speech_sound hreach).1 (.inl (by decide +kernel))

example : greeting.1.spoken = [(1, "Good morning")] ∧ greeting.2 = ["Hello", "Good morning"] := by
  decide +kernel

end HumanGate
