import HumanGate.Lib.Words

set_option autoImplicit false

/-! # Words in pieces

Pieces of words are joined: the words of each piece with a separator between them, and the pieces
with one separator between them as well. A piece without words leaves one separator more, so the
joined text, even when it is stripped, tells the words and how many empty pieces stood between them
(`strip_joined`, `tight_inj`).
-/

namespace Lib.Words

universe u

variable {α : Type u}

/-- A word is not empty and contains no whitespace. -/
def IsWord (isSpace : α → Bool) (w : List α) : Prop := w ≠ [] ∧ ∀ c ∈ w, isSpace c = false

/-- The words joined with single separators. -/
def join (sep : α) (words : List (List α)) : List α := [sep].intercalate words

/-- The words, each with the number of empty pieces right before its own. -/
def spaced : Nat → List (List (List α)) → List (Nat × List α)
  | _, [] => []
  | empty, [] :: pieces => spaced (empty + 1) pieces
  | empty, (w :: ws) :: pieces => (empty, w) :: (ws.map fun v => (0, v)) ++ spaced 0 pieces

/-- How many empty pieces stand between each word and the next. -/
def gaps (pieces : List (List (List α))) : List Nat := ((spaced 0 pieces).map Prod.fst).tail

/-- The words, each behind its separators. -/
def spread (sep : α) (l : List (Nat × List α)) : List α :=
  l.flatMap fun p => List.replicate (p.1 + 1) sep ++ p.2

/-- The same, but for the separators before the first word. -/
def tight (sep : α) : List (Nat × List α) → List α
  | [] => []
  | (_, w) :: l => w ++ spread sep l

variable {isSpace : α → Bool} {sep : α} {text w : List α} {pieces : List (List (List α))}
  {l l' : List (Nat × List α)}

/-! ## Words -/

theorem not_space_of_mem_splitOnP (h : w ∈ text.splitOnP isSpace) : ∀ c ∈ w, isSpace c = false := by
  induction text generalizing w with
  | nil =>
      rw [List.splitOnP_nil, List.mem_singleton] at h
      rw [h]
      exact fun _ h => nomatch h
  | cons first rest ih =>
      rw [List.splitOnP_cons_eq_if_modifyHead] at h
      cases hfirst : isSpace first with
      | true =>
          rw [hfirst, if_pos rfl] at h
          rcases List.mem_cons.mp h with rfl | h
          · exact fun _ h => nomatch h
          · exact ih h
      | false =>
          rw [hfirst, if_neg Bool.false_ne_true] at h
          cases hsplit : rest.splitOnP isSpace with
          | nil => exact absurd hsplit (List.splitOnP_ne_nil _ _)
          | cons piece others =>
              rw [hsplit] at h ih
              rcases List.mem_cons.mp h with rfl | h
              · intro c hc
                rcases List.mem_cons.mp hc with rfl | hc
                · exact hfirst
                · exact ih List.mem_cons_self c hc
              · exact ih (List.mem_cons_of_mem piece h)

theorem isWord_of_mem (h : w ∈ words isSpace text) : IsWord isSpace w :=
  ⟨ne_nil_of_mem_words h, not_space_of_mem_splitOnP (List.mem_filter.mp h).1⟩

theorem spaced_words (empty : Nat) (pieces : List (List (List α))) :
    (spaced empty pieces).map Prod.snd = pieces.flatten := by
  induction pieces generalizing empty with
  | nil => rfl
  | cons piece pieces ih =>
      cases piece with
      | nil => exact ih (empty + 1)
      | cons w ws =>
          unfold spaced
          rw [List.map_append, ih, List.map_cons, List.map_map, List.flatten_cons]
          congr 2
          exact List.map_id ws

/-! ## The joined text -/

/-- A separator before the first word, too. -/
theorem cons_join (sep : α) (w : List α) (ws : List (List α)) :
    sep :: join sep (w :: ws) = (w :: ws).flatMap fun v => sep :: v := by
  induction ws generalizing w with
  | nil => simp [join]
  | cons v ws ih =>
      have hnext := ih v
      unfold join at hnext ⊢
      rw [List.intercalate_cons_cons, List.flatMap_cons, ← hnext]
      simp

/-- **What is joined**: the words behind their separators, and the separators of the empty pieces at
the end. -/
theorem spread_spaced (sep : α) (empty : Nat) (pieces : List (List (List α))) :
    ∃ trailing, List.replicate empty sep ++ (pieces.flatMap fun piece => sep :: join sep piece) =
      spread sep (spaced empty pieces) ++ List.replicate trailing sep := by
  induction pieces generalizing empty with
  | nil => exact ⟨empty, List.append_nil _⟩
  | cons piece pieces ih =>
      cases piece with
      | nil =>
          obtain ⟨trailing, hrest⟩ := ih (empty + 1)
          refine ⟨trailing, ?_⟩
          unfold spaced
          rw [← hrest, List.flatMap_cons, List.replicate_succ', List.append_assoc]
          rfl
      | cons w ws =>
          obtain ⟨trailing, hrest⟩ := ih 0
          refine ⟨trailing, ?_⟩
          have hone : (ws.flatMap fun v => sep :: v) = spread sep (ws.map fun v => (0, v)) := by
            unfold spread
            rw [List.flatMap_map]
            rfl
          calc List.replicate empty sep ++
                (((w :: ws) :: pieces).flatMap fun piece => sep :: join sep piece)
              = List.replicate empty sep ++ ((sep :: w) ++ (ws.flatMap fun v => sep :: v)) ++
                  (pieces.flatMap fun piece => sep :: join sep piece) := by
                rw [List.flatMap_cons, cons_join, List.flatMap_cons]
                simp only [List.append_assoc]
            _ = List.replicate (empty + 1) sep ++ w ++ spread sep (ws.map fun v => (0, v)) ++
                  (spread sep (spaced 0 pieces) ++ List.replicate trailing sep) := by
                rw [← hrest, hone, List.replicate_succ']
                simp
            _ = spread sep ((empty, w) :: (ws.map fun v => (0, v)) ++ spaced 0 pieces) ++
                  List.replicate trailing sep := by
                unfold spread
                rw [List.flatMap_append, List.flatMap_cons]
                simp only [List.append_assoc]

/-- The whitespace around a text that begins and ends with none. -/
theorem strip_pad {before after : List α} (hbefore : ∀ c ∈ before, isSpace c = true)
    (hafter : ∀ c ∈ after, isSpace c = true) (hfirst : ∀ c ∈ text.head?, isSpace c = false)
    (hlast : ∀ c ∈ text.getLast?, isSpace c = false) :
    strip isSpace (before ++ text ++ after) = text := by
  have hright : (text ++ after).rdropWhile isSpace = text := by
    unfold List.rdropWhile
    rw [List.reverse_append, List.dropWhile_append_of_pos fun c hc =>
      hafter c (List.mem_reverse.mp hc)]
    cases hrev : text.reverse with
    | nil => exact (List.reverse_eq_nil_iff.mp hrev).symm
    | cons last rest =>
        have hend : isSpace last = false := by
          refine hlast last ?_
          rw [← List.head?_reverse, hrev]
          rfl
        rw [List.dropWhile_cons_of_neg (by rw [hend]; exact Bool.false_ne_true), ← hrev,
          List.reverse_reverse]
  unfold strip
  rw [List.append_assoc, List.dropWhile_append_of_pos hbefore]
  cases text with
  | nil =>
      rw [List.nil_append, List.dropWhile_eq_nil_iff.mpr hafter]
      rfl
  | cons first rest =>
      have hbegin : isSpace first = false := hfirst first rfl
      rw [List.cons_append, List.dropWhile_cons_of_neg (by rw [hbegin]; exact Bool.false_ne_true)]
      exact hright

/-- A tight text begins and ends with a word. -/
theorem tight_head? (h : ∀ p ∈ l, IsWord isSpace p.2) :
    ∀ c ∈ (tight sep l).head?, isSpace c = false := by
  cases l with
  | nil => exact fun _ h => nomatch h
  | cons p rest =>
      obtain ⟨k, w⟩ := p
      obtain ⟨hne, hword⟩ := h (k, w) List.mem_cons_self
      intro c hc
      cases w with
      | nil => exact absurd rfl hne
      | cons first others =>
          cases hc
          exact hword c List.mem_cons_self

theorem spread_cons (k : Nat) (w : List α) (l : List (Nat × List α)) :
    spread sep ((k, w) :: l) = List.replicate (k + 1) sep ++ tight sep ((k, w) :: l) := by
  unfold spread tight
  rw [List.flatMap_cons, List.append_assoc]
  rfl

theorem tight_getLast? (h : ∀ p ∈ l, IsWord isSpace p.2) :
    ∀ c ∈ (tight sep l).getLast?, isSpace c = false := by
  induction l using List.reverseRecOn with
  | nil => exact fun _ h => nomatch h
  | append_singleton rest p _ =>
      obtain ⟨hne, hword⟩ := h p (List.mem_append_right _ List.mem_cons_self)
      -- whatever is in front, the last word comes last
      have hends : ∃ front, tight sep (rest ++ [p]) = front ++ p.2 := by
        cases rest with
        | nil => exact ⟨[], List.append_nil _⟩
        | cons q rest =>
            refine ⟨q.2 ++ (spread sep rest ++ List.replicate (p.1 + 1) sep), ?_⟩
            unfold spread
            rw [List.cons_append, tight, spread, List.flatMap_append, List.flatMap_singleton]
            simp only [List.append_assoc]
      obtain ⟨front, hfront⟩ := hends
      intro c hc
      rw [hfront, List.getLast?_append_of_ne_nil _ hne] at hc
      exact hword c (List.mem_of_getLast? hc)

theorem isWord_spaced (empty : Nat) (h : ∀ piece ∈ pieces, ∀ w ∈ piece, IsWord isSpace w) :
    ∀ p ∈ spaced empty pieces, IsWord isSpace p.2 := by
  intro p hp
  have hmem : p.2 ∈ pieces.flatten := by
    rw [← spaced_words empty]
    exact List.mem_map_of_mem hp
  obtain ⟨piece, hpiece, hw⟩ := List.mem_flatten.mp hmem
  exact h piece hpiece p.2 hw

/-- **The joined pieces**, stripped: the words, and a separator more for each empty piece in
between. -/
theorem strip_joined (hsep : isSpace sep = true)
    (h : ∀ piece ∈ pieces, ∀ w ∈ piece, IsWord isSpace w) :
    strip isSpace (join sep (pieces.map (join sep))) = tight sep (spaced 0 pieces) := by
  have hseps : ∀ n, ∀ c ∈ List.replicate n sep, isSpace c = true := by
    intro n c hc
    rw [List.eq_of_mem_replicate hc]
    exact hsep
  have hwords := isWord_spaced 0 h
  cases pieces with
  | nil => rfl
  | cons piece pieces =>
      -- a separator in front makes all separators alike, and is stripped
      have hcons : sep :: join sep ((piece :: pieces).map (join sep)) =
          (piece :: pieces).flatMap fun piece => sep :: join sep piece := by
        rw [List.map_cons, cons_join, ← List.map_cons, List.flatMap_map]
      have hstrip : strip isSpace (join sep ((piece :: pieces).map (join sep))) =
          strip isSpace (sep :: join sep ((piece :: pieces).map (join sep))) := by
        unfold strip
        rw [List.dropWhile_cons_of_pos hsep]
      obtain ⟨trailing, htext⟩ := spread_spaced sep 0 (piece :: pieces)
      rw [List.replicate_zero, List.nil_append] at htext
      obtain ⟨n, hn⟩ : ∃ n, spread sep (spaced 0 (piece :: pieces)) =
          List.replicate n sep ++ tight sep (spaced 0 (piece :: pieces)) := by
        cases spaced 0 (piece :: pieces) with
        | nil => exact ⟨0, rfl⟩
        | cons p l => exact ⟨p.1 + 1, spread_cons p.1 p.2 l⟩
      rw [hstrip, hcons, htext, hn]
      exact strip_pad (hseps n) (hseps trailing) (tight_head? hwords) (tight_getLast? hwords)

theorem tight_eq_nil (h : ∀ p ∈ l, IsWord isSpace p.2) : tight sep l = [] ↔ l = [] := by
  cases l with
  | nil => exact iff_of_true rfl rfl
  | cons p l =>
      have hne := (h p List.mem_cons_self).1
      exact iff_of_false (fun heq => hne (List.append_eq_nil_iff.mp heq).1) (List.cons_ne_nil p l)

theorem mem_spread {c : α} (h : c ∈ spread sep l) : c = sep ∨ ∃ p ∈ l, c ∈ p.2 := by
  obtain ⟨p, hp, hc⟩ := List.mem_flatMap.mp h
  rcases List.mem_append.mp hc with hc | hc
  · exact .inl (List.eq_of_mem_replicate hc)
  · exact .inr ⟨p, hp, hc⟩

/-- A tight text consists of separators and of what its words consist of. -/
theorem forall_tight {p : α → Prop} (hsep : p sep) :
    (∀ c ∈ tight sep l, p c) ↔ ∀ w ∈ l.map Prod.snd, ∀ c ∈ w, p c := by
  cases l with
  | nil => exact iff_of_true (fun _ h => nomatch h) fun _ h => nomatch h
  | cons q l =>
      constructor
      · intro h w hw c hc
        refine h c (List.mem_append.mpr ?_)
        rcases List.mem_cons.mp hw with rfl | hw
        · exact .inl hc
        · obtain ⟨r, hr, rfl⟩ := List.mem_map.mp hw
          exact .inr (List.mem_flatMap.mpr ⟨r, hr, List.mem_append_right _ hc⟩)
      · intro h c hc
        rcases List.mem_append.mp hc with hc | hc
        · exact h q.2 List.mem_cons_self c hc
        · rcases mem_spread hc with rfl | ⟨r, hr, hc⟩
          · exact hsep
          · exact h r.2 (List.mem_cons_of_mem _ (List.mem_map_of_mem hr)) c hc

/-! ## What it tells -/

/-- A text is cut where the whitespace begins. -/
theorem append_inj_of_stop {p : α → Bool} {a a' b b' : List α} (ha : ∀ c ∈ a, p c = true)
    (ha' : ∀ c ∈ a', p c = true) (hb : ∀ c ∈ b.head?, p c = false)
    (hb' : ∀ c ∈ b'.head?, p c = false)
    (h : a ++ b = a' ++ b') : a = a' ∧ b = b' := by
  induction a generalizing a' with
  | nil =>
      cases a' with
      | nil => exact ⟨rfl, h⟩
      | cons c rest' =>
          rw [List.nil_append, List.cons_append] at h
          have hc := hb c (by rw [h]; rfl)
          exact absurd (ha' c List.mem_cons_self) (by rw [hc]; exact Bool.false_ne_true)
  | cons c rest ih =>
      have hc := ha c List.mem_cons_self
      cases a' with
      | nil =>
          rw [List.nil_append, List.cons_append] at h
          have hnot := hb' c (by rw [← h]; rfl)
          exact absurd hc (by rw [hnot]; exact Bool.false_ne_true)
      | cons c' rest' =>
          rw [List.cons_append, List.cons_append] at h
          obtain ⟨hfirst, hrest⟩ := List.cons.inj h
          obtain ⟨hsame, hb⟩ := ih (fun d hd => ha d (List.mem_cons_of_mem c hd))
            (fun d hd => ha' d (List.mem_cons_of_mem c' hd)) hrest
          exact ⟨by rw [hfirst, hsame], hb⟩

theorem spread_head? (hsep : isSpace sep = true) (l : List (Nat × List α)) :
    ∀ c ∈ (spread sep l).head?, (!isSpace c) = false := by
  cases l with
  | nil => exact fun _ h => nomatch h
  | cons p l =>
      intro c hc
      cases hc
      rw [hsep]
      rfl

/-- A word ends where its separators begin. -/
theorem word_inj (hsep : isSpace sep = true) {w w' : List α} (hw : IsWord isSpace w)
    (hw' : IsWord isSpace w') (heq : w ++ spread sep l = w' ++ spread sep l') :
    w = w' ∧ spread sep l = spread sep l' := by
  have hnot : ∀ {v : List α}, IsWord isSpace v → ∀ c ∈ v, (!isSpace c) = true := by
    intro v hv c hc
    rw [hv.2 c hc]
    rfl
  exact append_inj_of_stop (hnot hw) (hnot hw') (spread_head? hsep l) (spread_head? hsep l') heq

theorem spread_inj (hsep : isSpace sep = true) (h : ∀ p ∈ l, IsWord isSpace p.2)
    (h' : ∀ p ∈ l', IsWord isSpace p.2) (heq : spread sep l = spread sep l') : l = l' := by
  have hseps : ∀ n, ∀ c ∈ List.replicate n sep, isSpace c = true := by
    intro n c hc
    rw [List.eq_of_mem_replicate hc]
    exact hsep
  induction l generalizing l' with
  | nil =>
      cases l' with
      | nil => rfl
      | cons p l' => exact nomatch heq
  | cons p l ih =>
      cases l' with
      | nil => exact nomatch heq
      | cons p' l' =>
          obtain ⟨k, w⟩ := p
          obtain ⟨k', w'⟩ := p'
          rw [spread_cons, spread_cons] at heq
          obtain ⟨hgap, htight⟩ := append_inj_of_stop (hseps (k + 1)) (hseps (k' + 1))
            (tight_head? h) (tight_head? h') heq
          have hk : k = k' := by
            have hlength := congrArg List.length hgap
            rw [List.length_replicate, List.length_replicate] at hlength
            omega
          have hword : IsWord isSpace w := h (k, w) List.mem_cons_self
          have hword' : IsWord isSpace w' := h' (k', w') List.mem_cons_self
          obtain ⟨hw, hrest⟩ := word_inj hsep hword hword' htight
          rw [hk, hw, ih (fun q hq => h q (List.mem_cons_of_mem _ hq))
            (fun q hq => h' q (List.mem_cons_of_mem _ hq)) hrest]

/-- **A tight text tells** its words and the gaps between them, and nothing else. -/
theorem tight_inj (hsep : isSpace sep = true) (h : ∀ p ∈ l, IsWord isSpace p.2)
    (h' : ∀ p ∈ l', IsWord isSpace p.2) :
    tight sep l = tight sep l' ↔
      l.map Prod.snd = l'.map Prod.snd ∧ (l.map Prod.fst).tail = (l'.map Prod.fst).tail := by
  cases l with
  | nil =>
      cases l' with
      | nil => exact iff_of_true rfl ⟨rfl, rfl⟩
      | cons p' l' =>
          have hne := (h' p' List.mem_cons_self).1
          refine iff_of_false (fun heq => ?_) fun heq => nomatch heq.1
          exact hne (List.append_eq_nil_iff.mp heq.symm).1
  | cons p l =>
      cases l' with
      | nil =>
          have hne := (h p List.mem_cons_self).1
          refine iff_of_false (fun heq => ?_) fun heq => nomatch heq.1
          exact hne (List.append_eq_nil_iff.mp heq).1
      | cons p' l' =>
          obtain ⟨k, w⟩ := p
          obtain ⟨k', w'⟩ := p'
          have hword : IsWord isSpace w := h (k, w) List.mem_cons_self
          have hword' : IsWord isSpace w' := h' (k', w') List.mem_cons_self
          constructor
          · intro heq
            -- the first word ends at its separator
            obtain ⟨hw, hrest⟩ := word_inj hsep hword hword' heq
            have hl := spread_inj hsep (fun q hq => h q (List.mem_cons_of_mem _ hq))
              (fun q hq => h' q (List.mem_cons_of_mem _ hq)) hrest
            rw [hw, hl]
            exact ⟨rfl, rfl⟩
          · rintro ⟨hwords, hgaps⟩
            rw [List.map_cons, List.map_cons] at hwords
            rw [List.map_cons, List.map_cons, List.tail_cons, List.tail_cons] at hgaps
            obtain ⟨hw, hrest⟩ := List.cons.inj hwords
            have hl : l = l' := by
              rw [← List.zip_unzip l, ← List.zip_unzip l', List.unzip_eq_map, List.unzip_eq_map]
              simp only [hgaps, hrest]
            show w ++ spread sep l = w' ++ spread sep l'
            rw [hl, show w = w' from hw]

end Lib.Words
