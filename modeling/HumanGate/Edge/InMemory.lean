import HumanGate.Model.RateLimit

set_option autoImplicit false

/-! # The bounded limiter is a fixed-window limiter

`InMemoryRateLimiter` forgets windows: a sweep drops those that have ended, and an admission drops
the oldest ones when the map is full. The map stays ordered by the start of its windows, so what is
dropped for room has ended whenever fewer live keys than the cap are tracked. What is tracked is
what the ideal limiter keeps, and what is not tracked has ended there.
-/

namespace HumanGate

open Lib Lib.FixedWindow InMemoryRateLimiter

universe u v

variable {κ : Type u} {τ : Type v}

/-! ## Making room -/

section Room

variable {cap : Nat} {windows : OrderedDict κ (RateWindow τ)} {e : κ × RateWindow τ}

theorem evict_sublist (cap : Nat) (rounds : Nat) :
    ∀ windows : OrderedDict κ (RateWindow τ),
      (evict cap rounds windows).entries.Sublist windows.entries := by
  induction rounds with
  | zero => exact fun windows => List.Sublist.refl _
  | succ rounds ih =>
      intro windows
      unfold evict
      split
      · exact (ih windows.popFirst).trans (List.tail_sublist _)
      · exact List.Sublist.refl _

/-- The loop ends with room for a key. -/
theorem evict_length (hcap : 1 ≤ cap) (rounds : Nat) :
    ∀ windows : OrderedDict κ (RateWindow τ), windows.entries.length ≤ rounds →
      (evict cap rounds windows).entries.length < cap := by
  induction rounds with
  | zero =>
      intro windows hlength
      show windows.entries.length < cap
      omega
  | succ rounds ih =>
      intro windows hlength
      unfold evict
      split
      · refine ih windows.popFirst ?_
        have htail : windows.popFirst.entries.length = windows.entries.length - 1 :=
          List.length_tail
        omega
      · omega

/-- An entry is taken out as the first of at least `cap`. -/
theorem evict_dropped (rounds : Nat) :
    ∀ windows : OrderedDict κ (RateWindow τ), e ∈ windows.entries →
      e ∉ (evict cap rounds windows).entries →
      ∃ before after, windows.entries = before ++ e :: after ∧ cap ≤ (e :: after).length := by
  induction rounds with
  | zero => exact fun windows he hnot => absurd he hnot
  | succ rounds ih =>
      intro windows he hnot
      unfold evict at hnot
      split at hnot
      · rename_i hfull
        cases hentries : windows.entries with
        | nil =>
            rw [hentries] at he
            exact nomatch he
        | cons first rest =>
            rw [hentries] at he hfull
            rcases List.mem_cons.mp he with rfl | hrest
            · exact ⟨[], rest, rfl, hfull⟩
            · have hpop : windows.popFirst.entries = rest := congrArg List.tail hentries
              obtain ⟨before, after, hsplit, hcap⟩ :=
                ih windows.popFirst (by rw [hpop]; exact hrest) hnot
              refine ⟨first :: before, after, ?_, hcap⟩
              rw [hpop] at hsplit
              rw [hsplit]
              rfl
      · exact absurd he hnot

end Room

variable [AddCommGroup τ] [LinearOrder τ]

def RateWindow.window (w : RateWindow τ) : Window τ := ⟨w.startedAt, w.count⟩

def InMemorySettings.policy (settings : InMemorySettings τ) : Policy τ where
  limit := settings.maxRequests
  length := settings.windowSeconds
  limit_pos := settings.maxRequests_pos
  length_pos := settings.windowSeconds_pos

variable {settings : InMemorySettings τ} {s : InMemoryRateLimiter κ τ} {now now' : τ}

theorem makeRoom_sublist (settings : InMemorySettings τ) (s : InMemoryRateLimiter κ τ) (now : τ) :
    (s.makeRoom settings now).windows.entries.Sublist s.windows.entries := by
  unfold makeRoom
  split
  · exact (evict_sublist _ _ _).trans List.filter_sublist
  · exact evict_sublist _ _ _

theorem makeRoom_length (settings : InMemorySettings τ) (s : InMemoryRateLimiter κ τ) (now : τ) :
    (s.makeRoom settings now).windows.entries.length < settings.maxTrackedKeys :=
  evict_length settings.maxTrackedKeys_pos _ _ le_rfl

/-! ## The map -/

/-- The map is ordered by the start of its windows, and bounded. -/
structure Tidy (settings : InMemorySettings τ) (s : InMemoryRateLimiter κ τ) (now : τ) : Prop where
  ordered : s.windows.entries.Pairwise fun a b => a.2.startedAt ≤ b.2.startedAt
  past : ∀ e ∈ s.windows.entries, e.2.startedAt ≤ now
  room : s.windows.entries.length ≤ settings.maxTrackedKeys

theorem new_tidy (now : τ) : Tidy settings (new : InMemoryRateLimiter κ τ) now :=
  ⟨List.Pairwise.nil, fun _ he => (nomatch he), Nat.zero_le _⟩

theorem Tidy.later (h : Tidy settings s now) (hle : now ≤ now') : Tidy settings s now' :=
  ⟨h.ordered, fun e he => (h.past e he).trans hle, h.room⟩

/-- Fewer open windows than the cap: what is dropped for room has ended. -/
theorem makeRoom_dropped [IsOrderedAddMonoid τ] (h : Tidy settings s now)
    (hfew : ∀ open' : List (κ × RateWindow τ), open'.Sublist s.windows.entries →
      (∀ e ∈ open', settings.policy.expired now e.2.window = false) →
      open'.length < settings.maxTrackedKeys)
    {e : κ × RateWindow τ} (he : e ∈ s.windows.entries)
    (hnot : e ∉ (s.makeRoom settings now).windows.entries) :
    settings.policy.expired now e.2.window = true := by
  by_contra hlive
  -- the loop would have taken out an open window, and with it all that are younger are open
  have hevict : ∀ windows : OrderedDict κ (RateWindow τ),
      windows.entries.Sublist s.windows.entries → e ∈ windows.entries →
      e ∉ (evict settings.maxTrackedKeys windows.entries.length windows).entries → False := by
    intro windows hsub he hnot
    obtain ⟨before, after, hsplit, hcap⟩ := evict_dropped _ windows he hnot
    have htail : (e :: after).Sublist s.windows.entries := by
      refine List.Sublist.trans ?_ hsub
      rw [hsplit]
      exact List.sublist_append_right _ _
    have hordered := h.ordered.sublist htail
    refine absurd (hfew (e :: after) htail fun e' he' => ?_) (Nat.not_lt.mpr hcap)
    rcases List.mem_cons.mp he' with rfl | hafter
    · exact Bool.eq_false_iff.mpr hlive
    · refine Bool.eq_false_iff.mpr fun hexpired => hlive ?_
      have hle : e.2.window.start ≤ e'.2.window.start := List.rel_of_pairwise_cons hordered hafter
      exact Policy.expired_older hle hexpired
  unfold makeRoom at hnot
  split at hnot
  · refine hevict (s.sweep settings now).windows List.filter_sublist ?_ hnot
    -- the sweep keeps an open window
    refine List.mem_filter.mpr ⟨he, decide_eq_true ?_⟩
    have hopen : ¬ settings.windowSeconds ≤ now - e.2.startedAt := fun hle =>
      hlive (decide_eq_true hle)
    exact sub_lt_comm.mp (lt_of_not_ge hopen)
  · exact hevict s.windows (List.Sublist.refl _) he hnot

section Check

variable [DecidableEq κ] {r : Request κ τ} {ideal : Windows κ τ}

/-- The three branches of `check`. -/
theorem check_cases (settings : InMemorySettings τ) (s : InMemoryRateLimiter κ τ)
    (r : Request κ τ) :
    ((∀ w, s.windows.get r.key = some w → settings.policy.expired r.now w.window = true) ∧
      s.check settings r = s.startWindow settings r) ∨
    (∃ w, s.windows.get r.key = some w ∧ settings.policy.expired r.now w.window = false ∧
      w.count < settings.maxRequests ∧
      s.check settings r =
        ({ s with windows := s.windows.modify r.key fun w => { w with count := w.count + 1 } },
          true, 0)) ∨
    (∃ w, s.windows.get r.key = some w ∧ settings.policy.expired r.now w.window = false ∧
      ¬ w.count < settings.maxRequests ∧
      s.check settings r =
        (s, false, max (settings.windowSeconds - (r.now - w.startedAt)) 0)) := by
  unfold InMemoryRateLimiter.check
  cases hget : s.windows.get r.key with
  | none => exact .inl ⟨fun w hw => (nomatch hw), rfl⟩
  | some w =>
      by_cases hended : settings.windowSeconds ≤ r.now - w.startedAt
      · refine .inl ⟨fun w' hw' => ?_, if_pos hended⟩
        cases hw'
        exact decide_eq_true hended
      · have hopen : settings.policy.expired r.now w.window = false := decide_eq_false hended
        by_cases hcount : w.count < settings.maxRequests
        · exact .inr (.inl ⟨w, rfl, hopen, hcount, (if_neg hended).trans (if_pos hcount)⟩)
        · exact .inr (.inr ⟨w, rfl, hopen, hcount, (if_neg hended).trans (if_neg hcount)⟩)

/-- **A request** keeps the map ordered and bounded. -/
theorem check_tidy (h : Tidy settings s r.now) :
    Tidy settings (s.check settings r).1 r.now := by
  rcases check_cases settings s r with ⟨_, hcheck⟩ | ⟨w, hget, _, _, hcheck⟩ | ⟨_, _, _, _, hcheck⟩
  · rw [hcheck]
    have hsub := makeRoom_sublist settings s r.now
    have hlength := makeRoom_length settings s r.now
    set room := (s.makeRoom settings r.now).windows with hroom
    have hkept : (room.entries.filter fun e => e.1 != r.key).Sublist s.windows.entries :=
      List.filter_sublist.trans hsub
    constructor
    · show (room.entries.filter (fun e : κ × RateWindow τ => e.1 != r.key)
        ++ [((r.key, ⟨r.now, 1⟩) : κ × RateWindow τ)]).Pairwise _
      refine List.pairwise_append.mpr ⟨h.ordered.sublist hkept, List.pairwise_singleton _ _, ?_⟩
      intro a ha b hb
      rw [List.mem_singleton.mp hb]
      exact h.past a (hkept.subset ha)
    · intro e he
      rcases OrderedDict.mem_putLast.mp he with rfl | ⟨he, _⟩
      · exact le_rfl
      · exact h.past e (hsub.subset he)
    · have hput : (room.putLast r.key ⟨r.now, 1⟩).entries.length ≤ room.entries.length + 1 :=
        OrderedDict.length_putLast_le
      show (room.putLast r.key ⟨r.now, 1⟩).entries.length ≤ settings.maxTrackedKeys
      omega
  · rw [hcheck]
    -- counting in place changes no start
    have hstart : ∀ e : κ × RateWindow τ,
        (if e.1 = r.key then (e.1, { e.2 with count := e.2.count + 1 }) else e).2.startedAt
          = e.2.startedAt := by
      intro e
      split <;> rfl
    constructor
    · refine List.pairwise_map.mpr (h.ordered.imp fun {a b} hab => ?_)
      rw [hstart a, hstart b]
      exact hab
    · intro e he
      obtain ⟨e₀, he₀, rfl⟩ := List.mem_map.mp he
      rw [hstart e₀]
      exact h.past e₀ he₀
    · exact (OrderedDict.length_modify _).trans_le h.room
  · rw [hcheck]
    exact h

theorem checks_tidy : ∀ (rs : List (Request κ τ)) {s : InMemoryRateLimiter κ τ} {now : τ},
    Tidy settings s now → (∀ r ∈ rs, now ≤ r.now) → Ordered rs →
    ∃ last, Tidy settings (s.checks settings rs).1 last := by
  intro rs
  induction rs with
  | nil => exact fun h _ _ => ⟨_, h⟩
  | cons r rest ih =>
      intro s now h hle hordered
      have hrest := List.pairwise_cons.mp hordered
      have hr : Tidy settings s r.now := h.later (hle r List.mem_cons_self)
      exact ih (check_tidy hr) hrest.1 hrest.2

/-! ## Against the ideal limiter -/

/-- What is tracked is what the ideal limiter keeps, and what is not has ended there. -/
structure Mirrors (settings : InMemorySettings τ) (s : InMemoryRateLimiter κ τ)
    (ideal : Windows κ τ) (now : τ) : Prop where
  kept : ∀ k w, s.windows.get k = some w → ideal k = some w.window
  gone : ∀ k w, ideal k = some w → s.windows.get k = none → settings.policy.expired now w = true

theorem new_mirrors (now : τ) :
    Mirrors settings (new : InMemoryRateLimiter κ τ) (fun _ => none) now :=
  ⟨fun _ _ hw => (nomatch hw), fun _ _ hw => (nomatch hw)⟩

/-- The ideal window of a key that starts a new one. -/
theorem Mirrors.hit (h : Mirrors settings s ideal r.now)
    (hended : ∀ w, s.windows.get r.key = some w →
      settings.policy.expired r.now w.window = true) :
    settings.policy.hit r.now (ideal r.key) = (⟨r.now, 1⟩, true, 0) := by
  cases hideal : ideal r.key with
  | none => rfl
  | some w =>
      have hexpired : settings.policy.expired r.now w = true := by
        cases hget : s.windows.get r.key with
        | none => exact h.gone r.key w hideal hget
        | some w' =>
            have hw : w = w'.window := Option.some.inj (hideal.symm.trans (h.kept r.key w' hget))
            rw [hw]
            exact hended w' hget
      rw [Policy.hit_of_expired hexpired]
      rfl

/-- The open windows that are tracked, and the one that is asked for, are live keys. -/
theorem Mirrors.few (h : Mirrors settings s ideal r.now)
    (hended : ∀ w, s.windows.get r.key = some w →
      settings.policy.expired r.now w.window = true)
    (hcrowd : LiveAtMost settings.policy settings.maxTrackedKeys
      (check settings.policy ideal r).1 r.now)
    {open' : List (κ × RateWindow τ)} (hsub : open'.Sublist s.windows.entries)
    (hopen : ∀ e ∈ open', settings.policy.expired r.now e.2.window = false) :
    open'.length < settings.maxTrackedKeys := by
  have hnodup : (open'.map Prod.fst).Nodup := s.windows.nodup.sublist (hsub.map Prod.fst)
  have hget : ∀ e ∈ open', s.windows.get e.1 = some e.2 := fun e he =>
    OrderedDict.get_eq_some.mpr (hsub.subset he)
  have hkey : r.key ∉ (open'.map Prod.fst).toFinset := by
    intro hmem
    obtain ⟨e, he, hek⟩ := List.mem_map.mp (List.mem_toFinset.mp hmem)
    have hexpired := hended e.2 (hek ▸ hget e he)
    rw [hopen e he] at hexpired
    exact nomatch hexpired
  have hlive : ∀ k ∈ insert r.key (open'.map Prod.fst).toFinset,
      Live settings.policy (check settings.policy ideal r).1 r.now k := by
    intro k hk
    by_cases hkr : k = r.key
    · subst hkr
      exact ⟨_, Function.update_self .., Policy.not_expired_hit _⟩
    · obtain ⟨e, he, rfl⟩ := List.mem_map.mp
        (List.mem_toFinset.mp ((Finset.mem_insert.mp hk).resolve_left hkr))
      refine ⟨e.2.window, ?_, hopen e he⟩
      show Function.update ideal r.key _ e.1 = some e.2.window
      rw [Function.update_of_ne hkr]
      exact h.kept e.1 e.2 (hget e he)
  have hcard := hcrowd _ hlive
  rw [Finset.card_insert_of_notMem hkey, List.toFinset_card_of_nodup hnodup, List.length_map]
    at hcard
  omega

variable [IsOrderedAddMonoid τ]

theorem Mirrors.later (h : Mirrors settings s ideal now) (hle : now ≤ now') :
    Mirrors settings s ideal now' :=
  ⟨h.kept, fun k w hw hget => Policy.expired_later hle (h.gone k w hw hget)⟩

/-- **A request** is answered as the ideal limiter answers it. -/
theorem check_mirrors (htidy : Tidy settings s r.now) (h : Mirrors settings s ideal r.now)
    (hcrowd : LiveAtMost settings.policy settings.maxTrackedKeys
      (check settings.policy ideal r).1 r.now) :
    Mirrors settings (s.check settings r).1 (check settings.policy ideal r).1 r.now ∧
      (s.check settings r).2 = (check settings.policy ideal r).2 := by
  rcases check_cases settings s r with ⟨hended, hcheck⟩ | ⟨w, hget, hopen, hcount, hcheck⟩ |
    ⟨w, hget, hopen, hcount, hcheck⟩
  · -- a new window starts, in the room that is made for it
    have hhit := h.hit hended
    have hideal : check settings.policy ideal r
        = (Function.update ideal r.key (some ⟨r.now, 1⟩), true, 0) := by
      unfold FixedWindow.check
      rw [hhit]
    rw [hcheck, hideal]
    refine ⟨⟨fun k w' hw' => ?_, fun k w' hw' hnone => ?_⟩, rfl⟩
    · have hput : ((s.makeRoom settings r.now).windows.putLast r.key ⟨r.now, 1⟩).get k = some w' :=
        hw'
      show Function.update ideal r.key _ k = _
      rw [OrderedDict.get_putLast] at hput
      by_cases hk : k = r.key
      · rw [if_pos hk] at hput
        cases hput
        rw [hk, Function.update_self]
        rfl
      · rw [if_neg hk] at hput
        rw [Function.update_of_ne hk]
        refine h.kept k w' (OrderedDict.get_eq_some.mpr ?_)
        exact (makeRoom_sublist settings s r.now).subset (OrderedDict.get_eq_some.mp hput)
    · have hput : ((s.makeRoom settings r.now).windows.putLast r.key ⟨r.now, 1⟩).get k = none :=
        hnone
      have hw' : Function.update ideal r.key _ k = some w' := hw'
      rw [OrderedDict.get_putLast] at hput
      by_cases hk : k = r.key
      · rw [if_pos hk] at hput
        exact nomatch hput
      · rw [if_neg hk] at hput
        rw [Function.update_of_ne hk] at hw'
        cases hget : s.windows.get k with
        | none => exact h.gone k w' hw' hget
        | some w =>
            have hsame : w' = w.window := Option.some.inj (hw'.symm.trans (h.kept k w hget))
            rw [hsame]
            -- what is dropped for it has ended, as there are few live keys
            exact makeRoom_dropped (e := (k, w)) htidy (fun open' => h.few hended hcrowd)
              (OrderedDict.get_eq_some.mp hget) (OrderedDict.get_eq_none.mp hput w)
  · -- an open window counts one more
    have hideal : check settings.policy ideal r
        = (Function.update ideal r.key (some ⟨w.startedAt, w.count + 1⟩), true, 0) := by
      unfold FixedWindow.check
      rw [h.kept r.key w hget, Policy.hit_open hopen hcount]
      rfl
    rw [hcheck, hideal]
    refine ⟨⟨fun k w' hw' => ?_, fun k w' hw' hnone => ?_⟩, rfl⟩
    · have hw' : (s.windows.modify r.key fun w => { w with count := w.count + 1 }).get k
          = some w' := hw'
      show Function.update ideal r.key _ k = _
      rw [OrderedDict.get_modify] at hw'
      by_cases hk : k = r.key
      · rw [if_pos hk, hget] at hw'
        cases hw'
        rw [hk, Function.update_self]
        rfl
      · rw [if_neg hk] at hw'
        rw [Function.update_of_ne hk]
        exact h.kept k w' hw'
    · have hnone : (s.windows.modify r.key fun w => { w with count := w.count + 1 }).get k = none :=
        hnone
      have hw' : Function.update ideal r.key _ k = some w' := hw'
      rw [OrderedDict.get_modify] at hnone
      by_cases hk : k = r.key
      · rw [if_pos hk, hget] at hnone
        exact nomatch hnone
      · rw [if_neg hk] at hnone
        rw [Function.update_of_ne hk] at hw'
        exact h.gone k w' hw' hnone
  · -- a full window refuses, and nothing changes
    have hideal : check settings.policy ideal r
        = (ideal, false, settings.windowSeconds - (r.now - w.startedAt)) := by
      unfold FixedWindow.check
      rw [h.kept r.key w hget, Policy.hit_full hopen hcount]
      refine Prod.ext ?_ rfl
      show Function.update ideal r.key (some w.window) = ideal
      rw [← h.kept r.key w hget, Function.update_eq_self]
    rw [hcheck, hideal]
    refine ⟨h, ?_⟩
    have hleft : 0 < settings.windowSeconds - (r.now - w.startedAt) := Policy.left_pos hopen
    show (false, max (settings.windowSeconds - (r.now - w.startedAt)) 0)
      = (false, settings.windowSeconds - (r.now - w.startedAt))
    rw [max_eq_left hleft.le]

/-! ## Sequences of requests -/

theorem checks_mirrors : ∀ (rs : List (Request κ τ)) {s : InMemoryRateLimiter κ τ}
    {ideal : Windows κ τ} {now : τ}, Tidy settings s now → Mirrors settings s ideal now →
    (∀ r ∈ rs, now ≤ r.now) → Ordered rs →
    Crowd settings.policy settings.maxTrackedKeys ideal rs →
    (s.checks settings rs).2 = answers settings.policy ideal rs := by
  intro rs
  induction rs with
  | nil => exact fun _ _ _ _ _ => rfl
  | cons r rest ih =>
      intro s ideal now htidy h hle hordered hcrowd
      have hrest := List.pairwise_cons.mp hordered
      have hr := hle r List.mem_cons_self
      obtain ⟨hmirrors, hanswer⟩ := check_mirrors (htidy.later hr) (h.later hr) hcrowd.1
      have htail := ih (check_tidy (htidy.later hr)) hmirrors hrest.1 hrest.2 hcrowd.2
      show (s.check settings r).2 :: ((s.check settings r).1.checks settings rest).2
        = (check settings.policy ideal r).2 :: answers settings.policy
            (check settings.policy ideal r).1 rest
      rw [hanswer, htail]

theorem checks_new {rs : List (Request κ τ)} (hordered : Ordered rs)
    (hcrowd : Crowd settings.policy settings.maxTrackedKeys (fun _ => none) rs) :
    (new.checks settings rs).2 = answers settings.policy (fun _ => none) rs := by
  cases rs with
  | nil => rfl
  | cons r rest =>
      refine checks_mirrors (r :: rest) (new_tidy r.now) (new_mirrors r.now) (fun r' hr' => ?_)
        hordered hcrowd
      rcases List.mem_cons.mp hr' with rfl | hrest
      · exact le_rfl
      · exact (List.pairwise_cons.mp hordered).1 r' hrest

/-- **The bounded limiter** never tracks more keys than its cap and keeps them in the order of their
windows; and as long as no more keys are live than it may track, it answers as the limiter that
keeps every window for ever. -/
theorem memory_refines_fixed_window (settings : InMemorySettings τ) (rs : List (Request κ τ))
    (hordered : Ordered rs) :
    (new.checks settings rs).1.windows.entries.length ≤ settings.maxTrackedKeys ∧
    (new.checks settings rs).1.windows.entries.Pairwise
      (fun a b => a.2.startedAt ≤ b.2.startedAt) ∧
    (Crowd settings.policy settings.maxTrackedKeys (fun _ => none) rs →
      (new.checks settings rs).2 = answers settings.policy (fun _ => none) rs) := by
  have htidy : ∃ last, Tidy settings (new.checks settings rs).1 last := by
    cases rs with
    | nil => exact ⟨0, new_tidy 0⟩
    -- the first request starts the clock
    | cons r rest =>
        have hrest := List.pairwise_cons.mp hordered
        exact checks_tidy rest (check_tidy (new_tidy r.now)) hrest.1 hrest.2
  obtain ⟨last, htidy⟩ := htidy
  exact ⟨htidy.room, htidy.ordered, fun hcrowd => checks_new hordered hcrowd⟩

end Check

/-- Two requests in ten seconds, for two tracked keys. -/
def smallSettings : InMemorySettings ℤ := ⟨2, 10, 2, by decide, by decide, by decide⟩

/-- Three keys, of which the first has ended when the third one comes. -/
def threeKeys : List (Request (Fin 3) ℤ) :=
  [⟨0, 0⟩, ⟨0, 1⟩, ⟨0, 2⟩, ⟨1, 8⟩, ⟨2, 11⟩, ⟨0, 19⟩, ⟨0, 20⟩]

/-- The first key is dropped for the third one, and nobody notices. -/
theorem three_keys_answered :
    (new.checks smallSettings threeKeys).2
      = answers smallSettings.policy (fun _ => none) threeKeys :=
  (memory_refines_fixed_window smallSettings threeKeys (by decide)).2.2 (by decide +kernel)

end HumanGate
