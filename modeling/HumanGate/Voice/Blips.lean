import HumanGate.Lib.Words
import HumanGate.Voice.Listening

set_option autoImplicit false

/-! # Blips are sent

The duration that decides whether a clip is sent counts the pre-roll and the pause that ended the
utterance. The pause alone is longer than the minimum, so no utterance is ever rejected: it ends as
its speech deserves exactly if that lasts for the minimum (`blip_rejected_iff`).
-/

namespace HumanGate

open Lib

/-- `CHUNK_BYTES`. -/
def chunkBytes : Nat := 960

/-- The chunks from the first loud one to the last. -/
def speechProper (utterance : List Clip) : List Clip := Words.strip (fun c => !loud c) utterance

def speechMs (utterance : List Clip) : Nat := (speechProper utterance).length * chunkMs

/-- How an utterance deserves to end: rejected if its speech is a blip, and captured otherwise. -/
def EndsDeservedly (utterance : List Clip) (callback : PostedCallback) : Prop :=
  (speechMs utterance < minCaptureMs → callback = .speechRejected) ∧
    (minCaptureMs ≤ speechMs utterance → ∃ clip, callback = .speechCaptured clip)

/-! ## What is captured -/

/-- Every `read` fills the buffer or returns nothing. -/
def FullSize (run : List ListenInput) : Prop :=
  ∀ i ∈ run, ∀ chunk, i.event = .read chunk → chunk = [] ∨ chunk.length = chunkBytes

/-- The chunks that a capture is made of. -/
structure CutsInto (capture : Clip) (utterance : List Clip) : Prop where
  flatten : utterance.flatten = capture
  full : ∀ c ∈ utterance, c.length = chunkBytes

/-- What the loop knows of the chunks: while waiting, how many of the last are loud; while
capturing, how long the capture lasts, and that it began with enough loud chunks. -/
def Timed : ListenThread → Prop
  | .waiting _ preRoll aboveMs => ∃ before recent, preRoll = before ++ recent ∧
      (∀ c ∈ recent, loud c = true) ∧ aboveMs = recent.length * 30 ∧ recent.length < 5 ∧
      ∀ c ∈ preRoll, c.length = chunkBytes
  | .capturing _ capture capturedMs belowMs => ∃ utterance, CutsInto capture utterance ∧
      capturedMs = utterance.length * 30 ∧ belowMs ≤ capturedMs ∧ capturedMs < 30000 ∧
      5 ≤ (utterance.filter loud).length
  | _ => True

theorem CutsInto.push {capture chunk : Clip} {utterance : List Clip}
    (h : CutsInto capture utterance)
    (hchunk : chunk.length = chunkBytes) : CutsInto (capture ++ chunk) (utterance ++ [chunk]) where
  flatten := by rw [List.flatten_append, List.flatten_singleton, h.flatten]
  full c hc := by
    rcases List.mem_append.mp hc with hc | hc
    · exact h.full c hc
    · rw [List.mem_singleton.mp hc]
      exact hchunk

/-- A capture is cut in one way only. -/
theorem CutsInto.unique {capture : Clip} {utterance utterance' : List Clip}
    (h : CutsInto capture utterance) (h' : CutsInto capture utterance') :
    utterance = utterance' := by
  induction utterance generalizing capture utterance' with
  | nil =>
      cases utterance' with
      | nil => rfl
      | cons c rest =>
          have hfull := h'.full c List.mem_cons_self
          have hempty : c ++ rest.flatten = [] := h'.flatten.trans h.flatten.symm
          rw [(List.append_eq_nil_iff.mp hempty).1] at hfull
          exact nomatch hfull
  | cons c rest ih =>
      have hc := h.full c List.mem_cons_self
      cases utterance' with
      | nil =>
          have hempty : c ++ rest.flatten = [] := h.flatten.trans h'.flatten.symm
          rw [(List.append_eq_nil_iff.mp hempty).1] at hc
          exact nomatch hc
      | cons d rest' =>
          have hd := h'.full d List.mem_cons_self
          have hboth : c ++ rest.flatten = d ++ rest'.flatten := h.flatten.trans h'.flatten.symm
          obtain ⟨hfirst, hrest⟩ := List.append_inj hboth (hc.trans hd.symm)
          have hsame := ih ⟨rfl, fun e he => h.full e (List.mem_cons_of_mem c he)⟩
            ⟨hrest.symm, fun e he => h'.full e (List.mem_cons_of_mem d he)⟩
          rw [hfirst, hsame]

/-- The last chunks stay in the pre-roll. -/
theorem preRoll_keeps (before recent : List Clip) (h : recent.length ≤ 5) :
    ∃ before', (before ++ recent).drop ((before ++ recent).length - 10) = before' ++ recent := by
  have hle : (before ++ recent).length - 10 ≤ before.length := by
    rw [List.length_append]
    omega
  exact ⟨_, List.drop_append_of_le_length hle⟩

theorem forall_loud_push {recent : List Clip} {c : Clip} (h : ∀ c ∈ recent, loud c = true)
    (hc : loud c = true) : ∀ d ∈ recent ++ [c], loud d = true := by
  intro d hd
  rcases List.mem_append.mp hd with hd | hd
  · exact h d hd
  · rw [List.mem_singleton.mp hd]
    exact hc

theorem timed_waiting (reading : Bool) : Timed (.waiting reading [] 0) :=
  ⟨[], [], rfl, fun _ h => (nomatch h), rfl, by decide, fun _ h => (nomatch h)⟩

theorem hearWaiting_timed (armed : Bool) {preRoll : List Clip} {aboveMs : Nat} {chunk : Clip}
    (hchunk : chunk.length = chunkBytes) (h : Timed (.waiting true preRoll aboveMs)) :
    Timed (hearWaiting armed preRoll aboveMs chunk).1 := by
  obtain ⟨before, recent, hpreRoll, hloud, habove, hfew, hfull⟩ := h
  rcases hearWaiting_spec armed preRoll aboveMs chunk with heq | ⟨preRoll', hkept, hcases⟩
  · rw [heq]
    exact timed_waiting false
  have hlength : preRoll'.length ≤ 10 := by
    rw [hkept, List.length_drop, List.length_append, List.length_singleton]
    omega
  have hfull' : ∀ c ∈ preRoll', c.length = chunkBytes := by
    intro c hc
    rw [hkept] at hc
    rcases List.mem_append.mp (List.mem_of_mem_drop hc) with hc | hc
    · exact hfull c hc
    · rw [List.mem_singleton.mp hc]
      exact hchunk
  -- the loud chunks in a row, and this one, are still there
  have htail : ∃ before', preRoll' = before' ++ (recent ++ [chunk]) := by
    have hfive : (recent ++ [chunk]).length ≤ 5 := by
      rw [List.length_append]
      exact hfew
    have hkeeps := preRoll_keeps before (recent ++ [chunk]) hfive
    rw [← List.append_assoc, ← hpreRoll, List.length_append, List.length_singleton,
      ← hkept] at hkeeps
    exact hkeeps
  obtain ⟨before', htail⟩ := htail
  rcases hcases with ⟨hc, henough, heq⟩ | ⟨above, hbelow, hup, hreset, heq⟩
  · rw [heq]
    refine ⟨preRoll', ⟨rfl, hfull'⟩, rfl, Nat.zero_le _, by omega, ?_⟩
    rw [htail, List.filter_append, List.filter_eq_self.mpr (forall_loud_push hloud hc),
      List.length_append, List.length_append, List.length_singleton]
    omega
  · rw [heq]
    cases hc : loud chunk with
    | false =>
        exact ⟨preRoll', [], (List.append_nil _).symm, fun _ h => (nomatch h), hreset hc, by decide,
          hfull'⟩
    | true =>
        have hup := hup hc
        refine ⟨before', recent ++ [chunk], htail, forall_loud_push hloud hc, ?_, ?_, hfull'⟩
        all_goals
          rw [List.length_append, List.length_singleton]
          omega

theorem hearCapturing_timed {capture : Clip} {capturedMs belowMs : Nat} {chunk : Clip}
    (hchunk : chunk.length = chunkBytes) (h : Timed (.capturing true capture capturedMs belowMs)) :
    Timed (hearCapturing capture capturedMs belowMs chunk).1 := by
  obtain ⟨utterance, hcuts, hlength, hquiet, _, hloud⟩ := h
  obtain ⟨below, hbelow, ⟨_, heq⟩ | ⟨hceiling, heq⟩⟩ :=
    hearCapturing_spec capture capturedMs belowMs chunk
  · rw [heq]
    exact timed_waiting false
  · rw [heq]
    refine ⟨utterance ++ [chunk], hcuts.push hchunk, ?_, by omega, hceiling, ?_⟩
    · rw [List.length_append, List.length_singleton]
      omega
    · rw [List.filter_append, List.length_append]
      omega

theorem hear_timed (h : Hearing) (i : ListenInput)
    (hi : ∀ chunk, i.event = .read chunk → chunk = [] ∨ chunk.length = chunkBytes)
    (htimed : Timed h.1) : Timed (hear h i).1 := by
  obtain ⟨l, log⟩ := h
  obtain ⟨running, armed, event⟩ := i
  unfold hear ListenThread.step
  dsimp only at htimed hi ⊢
  split
  · exact timed_waiting false
  · trivial
  · trivial
  · trivial
  · trivial
  · cases running with
    | true => exact htimed
    | false => trivial
  · cases running with
    | true => exact htimed
    | false => trivial
  · rename_i preRoll aboveMs chunk
    split
    · exact htimed
    · rename_i hchunk
      have hfull := (hi chunk rfl).resolve_left fun h => hchunk (by rw [h]; rfl)
      exact hearWaiting_timed armed hfull htimed
  · rename_i capture capturedMs belowMs chunk
    split
    · exact htimed
    · rename_i hchunk
      have hfull := (hi chunk rfl).resolve_left fun h => hchunk (by rw [h]; rfl)
      exact hearCapturing_timed hfull htimed
  · exact htimed

theorem listenLoop_timed {run : List ListenInput} {l : ListenThread} (hfull : FullSize run)
    (hl : (listenLoop run).1 = l) : Timed l := by
  subst hl
  induction run using List.reverseRecOn with
  | nil => trivial
  | append_singleton run i ih =>
      rw [listenLoop_concat]
      have hi := hfull i (List.mem_append_right _ List.mem_cons_self)
      exact hear_timed _ i hi (ih fun j hj => hfull j (List.mem_append_left _ hj))

/-! ## How an utterance ends -/

/-- The speech of an utterance contains its loud chunks. -/
theorem loud_le_speech (utterance : List Clip) :
    (utterance.filter loud).length * 30 ≤ speechMs utterance := by
  have hkept : (utterance.filter fun c => ! ! loud c).length ≤ (speechProper utterance).length :=
    Words.length_filter_le_strip
  simp only [Bool.not_not] at hkept
  exact Nat.mul_le_mul_right 30 hkept

theorem finish_captured {pcm : Clip} {durationMs : Nat} (hduration : 400 ≤ durationMs)
    (hpcm : pcm ≠ []) : finishUtterance pcm durationMs = .speechCaptured pcm := by
  unfold finishUtterance
  rw [if_neg]
  rw [not_or]
  exact ⟨not_lt.mpr hduration, fun h => hpcm (List.isEmpty_iff.mp h)⟩

theorem hear_capturing {capture : Clip} {capturedMs belowMs : Nat} {chunk : Clip}
    (hchunk : chunk.isEmpty = false) (log : List PostedCallback) (running armed : Bool) :
    hear (.capturing true capture capturedMs belowMs, log) ⟨running, armed, .read chunk⟩ =
      ((hearCapturing capture capturedMs belowMs chunk).1,
        log ++ (hearCapturing capture capturedMs belowMs chunk).2) := by
  unfold hear ListenThread.step
  dsimp only
  rw [hchunk]
  rfl

theorem isEmpty_of_full {chunk : Clip} (h : chunk.length = chunkBytes) : chunk.isEmpty = false := by
  cases chunk with
  | nil => exact nomatch h
  | cons b rest => rfl

/-- **An utterance that ends is captured**: it contains the pause or is as long as can be. -/
theorem hearCapturing_ends {capture : Clip} {capturedMs belowMs : Nat} {chunk : Clip}
    (hchunk : chunk.length = chunkBytes) (h : Timed (.capturing true capture capturedMs belowMs))
    (hends : (hearCapturing capture capturedMs belowMs chunk).1 = .waiting false [] 0) :
    (hearCapturing capture capturedMs belowMs chunk).2 = [.speechCaptured (capture ++ chunk)] := by
  obtain ⟨utterance, _, _, hquiet, _, _⟩ := h
  obtain ⟨below, hbelow, ⟨hend, heq⟩ | ⟨_, heq⟩⟩ :=
    hearCapturing_spec capture capturedMs belowMs chunk
  · have hduration : 400 ≤ capturedMs + 30 := by omega
    have hpcm : capture ++ chunk ≠ [] := by
      intro hempty
      rw [(List.append_eq_nil_iff.mp hempty).2] at hchunk
      exact nomatch hchunk
    rw [heq, finish_captured hduration hpcm]
  · rw [heq] at hends
    exact nomatch hends

/-- **Which utterances end deservedly.** In every run of the loop that reads full chunks, every
utterance, of at most a thousand chunks, that a chunk ends is captured; that is what its speech
deserves exactly if it lasts for the minimum. The speech of no utterance is shorter than the 150 ms
that confirm it. -/
theorem blip_rejected_iff (run : List ListenInput) (hfull : FullSize run)
    (capture : Clip) (capturedMs belowMs : Nat)
    (hcapturing : (listenLoop run).1 = .capturing true capture capturedMs belowMs)
    (running armed : Bool) (chunk : Clip) (hchunk : chunk.length = chunkBytes)
    (hends : (hear (listenLoop run) ⟨running, armed, .read chunk⟩).1 = .waiting false [] 0) :
    ∃ utterance callback, CutsInto (capture ++ chunk) utterance ∧ utterance.length ≤ 1000 ∧
      150 ≤ speechMs utterance ∧
      (hear (listenLoop run) ⟨running, armed, .read chunk⟩).2 = (listenLoop run).2 ++ [callback] ∧
      (EndsDeservedly utterance callback ↔ minCaptureMs ≤ speechMs utterance) := by
  have htimed := listenLoop_timed hfull hcapturing
  have hread : hear (listenLoop run) ⟨running, armed, .read chunk⟩ =
      ((hearCapturing capture capturedMs belowMs chunk).1,
        (listenLoop run).2 ++ (hearCapturing capture capturedMs belowMs chunk).2) := by
    rw [← hear_capturing (isEmpty_of_full hchunk) _ running armed, ← hcapturing]
  rw [hread] at hends ⊢
  obtain ⟨utterance, hcuts, hlength, _, hceiling, hloud⟩ := id htimed
  refine ⟨utterance ++ [chunk], _, hcuts.push hchunk, ?_, ?_,
    congrArg _ (hearCapturing_ends hchunk htimed hends), ?_⟩
  · rw [List.length_append, List.length_singleton]
    omega
  · -- five loud chunks have opened it
    have hfive := loud_le_speech (utterance ++ [chunk])
    rw [List.filter_append, List.length_append] at hfive
    omega
  · -- it is captured in any case, so its speech decides whether that is deserved
    constructor
    · intro h
      by_contra hshort
      exact nomatch h.1 (not_le.mp hshort)
    · intro hlong
      exact ⟨fun hshort => absurd hlong (not_le.mpr hshort), fun _ => ⟨_, rfl⟩⟩

/-! ## Speech and a blip -/

/-- So many loud chunks and twenty-nine silent ones; one more is awaited. -/
def untilPause (n : Nat) : List ListenInput := talking n 29 ++ [⟨true, true, .check⟩]

/-- Its utterance. -/
def spoken (n : Nat) : List Clip :=
  List.replicate n (toneChunk 127) ++ List.replicate 29 (toneChunk 0)

/-- The last chunk of the pause. -/
def lastSilence : ListenInput := ⟨true, true, .read (toneChunk 0)⟩

theorem toneChunk_length (b : UInt8) : (toneChunk b).length = chunkBytes := by
  unfold toneChunk
  exact List.length_replicate

theorem untilPause_full (n : Nat) : FullSize (untilPause n) := by
  have hchunks : ∀ (k : Nat) (b : UInt8) (i : ListenInput),
      i ∈ (List.replicate k (hearChunk (toneChunk b))).flatten →
        i.event = .check ∨ i.event = .read (toneChunk b) := by
    intro k b i hi
    obtain ⟨inputs, hinputs, hi⟩ := List.mem_flatten.mp hi
    rw [List.eq_of_mem_replicate hinputs] at hi
    rcases List.mem_cons.mp hi with rfl | hi
    · exact .inl rfl
    · rw [List.mem_singleton.mp hi]
      exact .inr rfl
  intro i hi chunk hread
  have hcases : i.event = .opened ∨ i.event = .check ∨ ∃ b, i.event = .read (toneChunk b) := by
    rcases List.mem_append.mp hi with hi | hi
    · rcases List.mem_cons.mp hi with rfl | hi
      · exact .inl rfl
      rcases List.mem_append.mp hi with hi | hi
      · exact .inr ((hchunks _ _ i hi).imp_right fun h => ⟨_, h⟩)
      · exact .inr ((hchunks _ _ i hi).imp_right fun h => ⟨_, h⟩)
    · rw [List.mem_singleton.mp hi]
      exact .inr (.inl rfl)
  rcases hcases with h | h | ⟨b, h⟩
  · exact nomatch h.symm.trans hread
  · exact nomatch h.symm.trans hread
  · cases h.symm.trans hread
    exact .inr (toneChunk_length b)

theorem spoken_cuts (n : Nat) :
    CutsInto ((spoken n).flatten ++ toneChunk 0) (spoken n ++ [toneChunk 0]) := by
  refine CutsInto.push ⟨rfl, fun c hc => ?_⟩ (toneChunk_length 0)
  rcases List.mem_append.mp hc with hc | hc
  · rw [List.eq_of_mem_replicate hc]
    exact toneChunk_length 127
  · rw [List.eq_of_mem_replicate hc]
    exact toneChunk_length 0

/-- One more chunk of an utterance that goes on. -/
theorem record_goes {c : Clip} (hc : c.isEmpty = false) (capture : Clip) {ms below below' : Nat}
    (log : List PostedCallback) (hms : ms + 30 < 30000)
    (hheard : (if loud c then 0 else below + 30) = below') (hbelow : below' < 900) :
    (hearChunk c).foldl hear (.capturing false capture ms below, log) =
      (.capturing false (capture ++ c) (ms + 30) below', log) := by
  have hgoes : hearCapturing capture ms below c =
      (.capturing false (capture ++ c) (ms + 30) below', []) := by
    subst hheard
    exact if_neg (not_or.mpr ⟨not_le.mpr hbelow, not_le.mpr hms⟩)
  have hcheck : hear (.capturing false capture ms below, log) ⟨true, true, .check⟩ =
      (.capturing true capture ms below, log) := congrArg (Prod.mk _) (List.append_nil log)
  unfold hearChunk
  rw [List.foldl_cons, List.foldl_cons, hcheck, List.foldl_nil, hear_capturing hc, hgoes,
    List.append_nil]

/-- Loud chunks leave no silence behind. -/
theorem record_loud {c : Clip} (hc : c.isEmpty = false) (hloud : loud c = true) (k : Nat)
    {capture : Clip} {ms : Nat} (log : List PostedCallback) (hms : ms + 30 * k < 30000) :
    (List.replicate k (hearChunk c)).flatten.foldl hear (.capturing false capture ms 0, log) =
      (.capturing false (capture ++ (List.replicate k c).flatten) (ms + 30 * k) 0, log) := by
  induction k generalizing capture ms with
  | zero => simp
  | succ k ih =>
      have hone : (hearChunk c).foldl hear (.capturing false capture ms 0, log) =
          (.capturing false (capture ++ c) (ms + 30) 0, log) :=
        record_goes hc capture log (by omega) (by rw [hloud]; rfl) (by decide)
      rw [List.replicate_succ, List.flatten_cons, List.foldl_append, hone, ih (by omega),
        List.replicate_succ, List.flatten_cons, List.append_assoc]
      congr 2
      omega

theorem record_silent {c : Clip} (hc : c.isEmpty = false) (hsilent : loud c = false) (k : Nat)
    {capture : Clip} {ms below : Nat} (log : List PostedCallback) (hms : ms + 30 * k < 30000)
    (hbelow : below + 30 * k < 900) :
    (List.replicate k (hearChunk c)).flatten.foldl hear (.capturing false capture ms below, log) =
      (.capturing false (capture ++ (List.replicate k c).flatten) (ms + 30 * k) (below + 30 * k),
        log) := by
  induction k generalizing capture ms below with
  | zero => simp
  | succ k ih =>
      have hone : (hearChunk c).foldl hear (.capturing false capture ms below, log) =
          (.capturing false (capture ++ c) (ms + 30) (below + 30), log) :=
        record_goes hc capture log (by omega) (by rw [hsilent]; rfl) (by omega)
      rw [List.replicate_succ, List.flatten_cons, List.foldl_append, hone, ih (by omega) (by omega),
        List.replicate_succ, List.flatten_cons, List.append_assoc]
      congr 2 <;> omega

/-- Five loud chunks start an utterance. -/
theorem wait_confirms {c : Clip} (hc : c.isEmpty = false) (hloud : loud c = true) :
    (List.replicate 5 (hearChunk c)).flatten.foldl hear (.waiting false [] 0, []) =
      (.capturing false (List.replicate 5 c).flatten 150 0, [.speechStarted]) := by
  simp [List.replicate, hearChunk, hear, ListenThread.step, hearWaiting, hc, hloud, speechConfirmMs,
    chunkMs, preRollChunks]

/-- The other loud ones and the silent ones belong to it. -/
theorem untilPause_captures (n : Nat) (hn : n < 900) :
    listenLoop (untilPause (5 + n)) =
      (.capturing true (spoken (5 + n)).flatten (150 + 30 * n + 870) 870, [.speechStarted]) := by
  have hloud : loud (toneChunk 127) = true := by decide +kernel
  have hsilent : loud (toneChunk 0) = false := by decide +kernel
  have hfull : ∀ b, (toneChunk b).isEmpty = false := fun b => isEmpty_of_full (toneChunk_length b)
  have hspoken : (spoken (5 + n)).flatten = (List.replicate 5 (toneChunk 127)).flatten ++
      (List.replicate n (toneChunk 127)).flatten ++ (List.replicate 29 (toneChunk 0)).flatten := by
    unfold spoken
    rw [List.replicate_add, List.flatten_append, List.flatten_append]
  unfold listenLoop untilPause talking
  have hopened : hear (.opening, []) ⟨true, true, .opened⟩ = (.waiting false [] 0, []) := rfl
  rw [List.foldl_append, List.foldl_cons, List.foldl_nil, List.foldl_cons, List.foldl_append,
    List.replicate_add, List.flatten_append, List.foldl_append, hopened,
    wait_confirms (hfull 127) hloud, record_loud (hfull 127) hloud n _ (by omega),
    record_silent (hfull 0) hsilent 29 _ (by omega) (by decide), hspoken]
  rfl

/-- The pause ends it. -/
theorem lastSilence_ends (n : Nat) (hn : n < 900) :
    (hear (listenLoop (untilPause (5 + n))) lastSilence).1 = .waiting false [] 0 := by
  have hsilent : loud (toneChunk 0) = false := by decide +kernel
  rw [untilPause_captures n hn]
  unfold lastSilence
  rw [hear_capturing (isEmpty_of_full (toneChunk_length 0))]
  unfold hearCapturing
  dsimp only
  rw [hsilent, if_neg Bool.false_ne_true, if_pos (.inl (by decide))]

/-- Fourteen loud chunks are sent, as they deserve. -/
theorem speech_sent : ∃ callback, (hear (listenLoop (untilPause 14)) lastSilence).2
      = (listenLoop (untilPause 14)).2 ++ [callback] ∧
    EndsDeservedly (spoken 14 ++ [toneChunk 0]) callback := by
  have hcapturing := congrArg Prod.fst (untilPause_captures 9 (by decide))
  have hms : speechMs (spoken 14 ++ [toneChunk 0]) = 420 := by decide +kernel
  obtain ⟨utterance, callback, hcuts, _, _, hposted, hiff⟩ :=
    blip_rejected_iff (untilPause 14) (untilPause_full 14) _ _ _ hcapturing true true _
      (toneChunk_length 0) (lastSilence_ends 9 (by decide))
  have hutterance : utterance = spoken 14 ++ [toneChunk 0] := hcuts.unique (spoken_cuts 14)
  have hlong : minCaptureMs ≤ speechMs utterance := by
    rw [hutterance, hms]
    decide
  rw [← hutterance]
  exact ⟨callback, hposted, hiff.mpr hlong⟩

/-- Five loud chunks, which are 150 ms, are sent as well. -/
theorem blip_sent :
    (listenLoop (untilPause 5)).1 = .capturing true (spoken 5).flatten 1020 870 ∧
      speechMs (spoken 5 ++ [toneChunk 0]) = 150 ∧
      ∃ clip, (hear (listenLoop (untilPause 5)) lastSilence).2
          = (listenLoop (untilPause 5)).2 ++ [.speechCaptured clip] ∧
        ¬ EndsDeservedly (spoken 5 ++ [toneChunk 0]) (.speechCaptured clip) := by
  have hcaptures := untilPause_captures 0 (by decide)
  have hcapturing := congrArg Prod.fst hcaptures
  have htimed := listenLoop_timed (untilPause_full 5) hcapturing
  have hposted : (hearCapturing (spoken 5).flatten 1020 870 (toneChunk 0)).2
      = [.speechCaptured ((spoken 5).flatten ++ toneChunk 0)] := by
    have hends := lastSilence_ends 0 (by decide)
    unfold lastSilence at hends
    rw [hcaptures, hear_capturing (isEmpty_of_full (toneChunk_length 0))] at hends
    exact hearCapturing_ends (toneChunk_length 0) htimed hends
  have hms : speechMs (spoken 5 ++ [toneChunk 0]) = 150 := by decide +kernel
  refine ⟨hcapturing, hms, (spoken 5).flatten ++ toneChunk 0, ?_, fun h => ?_⟩
  · unfold lastSilence
    rw [hcaptures, hear_capturing (isEmpty_of_full (toneChunk_length 0)), hposted]
  · have hrejected := h.1 (by rw [hms]; decide)
    exact nomatch hrejected

end HumanGate
