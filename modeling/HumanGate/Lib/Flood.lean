import Mathlib.Combinatorics.SimpleGraph.Metric
import Mathlib.Data.Finset.Card
import Mathlib.Data.Finset.Dedup

set_option autoImplicit false

/-! # Flooding a graph from a queue

A flood takes the vertices off a queue one by one. The neighbours that have no label yet get that of
the vertex, and are queued. When the queue runs dry, a vertex has the label of one of the sources
that are nearest to it (`Flood.Flooded`), and everything that was queued is what the sources reach.
-/

namespace Lib

namespace Flood

/-! ## What the sources reach -/

section Distance

variable {V : Type*} {G : SimpleGraph V} {sources : List V}

/-- A source reaches the vertex. -/
def Reached (G : SimpleGraph V) (sources : List V) (v : V) : Prop :=
  ∃ s ∈ sources, G.Reachable s v

/-- A source reaches the vertex in at most `k` edges. -/
def Within (G : SimpleGraph V) (sources : List V) (k : Nat) (v : V) : Prop :=
  ∃ s ∈ sources, ∃ p : G.Walk s v, p.length ≤ k

/-- `s` is a source that is nearest to the vertex. -/
structure Nearest (G : SimpleGraph V) (sources : List V) (s v : V) : Prop where
  source : s ∈ sources
  reachable : G.Reachable s v
  nearest : ∀ s' ∈ sources, G.Reachable s' v → G.dist s v ≤ G.dist s' v

theorem Reached.step {u v : V} (h : Reached G sources u) (huv : G.Adj u v) :
    Reached G sources v := by
  obtain ⟨s, hs, hreach⟩ := h
  exact ⟨s, hs, hreach.trans huv.reachable⟩

namespace Within

variable {k : Nat} {u v : V}

theorem zero (h : Within G sources 0 v) : v ∈ sources := by
  obtain ⟨s, hs, p, hp⟩ := h
  rwa [← SimpleGraph.Walk.eq_of_length_eq_zero (Nat.le_zero.mp hp)]

theorem source (h : v ∈ sources) : Within G sources k v :=
  ⟨v, h, .nil, Nat.zero_le k⟩

theorem reached (h : Within G sources k v) : Reached G sources v := by
  obtain ⟨s, hs, p, _⟩ := h
  exact ⟨s, hs, p.reachable⟩

theorem step (h : Within G sources k u) (huv : G.Adj u v) : Within G sources (k + 1) v := by
  obtain ⟨s, hs, p, hp⟩ := h
  refine ⟨s, hs, p.concat huv, ?_⟩
  rw [SimpleGraph.Walk.length_concat]
  omega

/-- The last edge of a shortest way. -/
theorem succ (h : Within G sources (k + 1) v) :
    Within G sources k v ∨ ∃ u, Within G sources k u ∧ G.Adj u v := by
  obtain ⟨s, hs, p, hp⟩ := h
  cases hrev : p.reverse with
  | nil => exact .inl (.source hs)
  | cons hadj q =>
      have hlen : p.length = q.length + 1 := by
        rw [← SimpleGraph.Walk.length_reverse, hrev, SimpleGraph.Walk.length_cons]
      refine .inr ⟨_, ⟨s, hs, q.reverse, ?_⟩, hadj.symm⟩
      rw [SimpleGraph.Walk.length_reverse]
      omega

theorem dist_le (h : Within G sources k v) {s : V} (hs : Nearest G sources s v) :
    G.dist s v ≤ k := by
  obtain ⟨s', hs', p, hp⟩ := h
  have hnearest := hs.nearest s' hs' p.reachable
  have hdist := G.dist_le p
  omega

theorem lt_dist (h : ¬ Within G sources k v) {s : V} (hs : s ∈ sources)
    (hreach : G.Reachable s v) : k < G.dist s v := by
  obtain ⟨p, hp⟩ := hreach.exists_walk_length_eq_dist
  by_contra hle
  exact h ⟨s, hs, p, by omega⟩

end Within

/-- A vertex just outside takes its nearest source from the neighbour that is reached first. -/
theorem Nearest.step {k : Nat} {s u v : V} (h : Nearest G sources s u)
    (hu : Within G sources k u) (hv : ¬ Within G sources k v) (huv : G.Adj u v) :
    Nearest G sources s v := by
  refine ⟨h.source, h.reachable.trans huv.reachable, fun s' hs' hreach => ?_⟩
  obtain ⟨p, hp⟩ := h.reachable.exists_walk_length_eq_dist
  have hle : G.dist s v ≤ (p.concat huv).length := G.dist_le _
  rw [SimpleGraph.Walk.length_concat, hp] at hle
  have hdist := hu.dist_le h
  have hfar := Within.lt_dist hv hs' hreach
  omega

theorem Nearest.self {s : V} (h : s ∈ sources) : Nearest G sources s s := by
  refine ⟨h, .refl s, fun _ _ _ => ?_⟩
  rw [SimpleGraph.dist_self]
  exact Nat.zero_le _

/-- A source is the nearest one to itself. -/
theorem Nearest.eq_self {s v : V} (h : Nearest G sources s v) (hv : v ∈ sources) : s = v := by
  have hdist := h.nearest v hv (.refl v)
  rw [SimpleGraph.dist_self] at hdist
  exact h.reachable.dist_eq_zero_iff.mp (Nat.le_zero.mp hdist)

end Distance

end Flood

/-! ## The queue -/

/-- The labels so far, what was taken off the queue and what is still in it. -/
structure Flood (V L : Type*) where
  label : V → Option L
  read : List V
  queue : List V

namespace Flood

variable {V L : Type*} [DecidableEq V] (adj : V → List V) (passable : V → Bool)
  (colour : Option L → Option L)

/-- A passable neighbour without a label takes the colour of `t`, and is queued. -/
def visit (t : V) (st : Flood V L) (n : V) : Flood V L :=
  if (st.label n).isSome || !passable n then st
  else { st with
    label := Function.update st.label n (colour (st.label t)), queue := st.queue ++ [n] }

/-- The next vertex is taken off the queue, and its neighbours are visited. -/
def take (st : Flood V L) : Flood V L :=
  match st.queue with
  | [] => st
  | t :: rest =>
      (adj t).foldl (visit passable colour t) { st with read := st.read ++ [t], queue := rest }

/-- At most `fuel` vertices are taken off the queue. -/
def run : Nat → Flood V L → Flood V L
  | 0, st => st
  | fuel + 1, st => run fuel (take adj passable colour st)

variable {adj passable colour}

@[simp] theorem run_zero (st : Flood V L) : run adj passable colour 0 st = st := rfl

theorem run_succ (fuel : Nat) (st : Flood V L) :
    run adj passable colour (fuel + 1) st
      = run adj passable colour fuel (take adj passable colour st) :=
  rfl

theorem run_nil {st : Flood V L} (h : st.queue = []) (fuel : Nat) :
    run adj passable colour fuel st = st := by
  induction fuel with
  | zero => rfl
  | succ fuel ih =>
      have htake : take adj passable colour st = st := by
        unfold take
        rw [h]
      rw [run_succ, htake, ih]

/-! ## One vertex -/

/-- What visiting the neighbours `ns` of `t` changes: `fresh` are labelled and queued. -/
structure Visited (passable : V → Bool) (t : V) (ns : List V) (st st' : Flood V L)
    (fresh : List V) : Prop where
  read : st'.read = st.read
  queue : st'.queue = st.queue ++ fresh
  nodup : fresh.Nodup
  mem : ∀ v, v ∈ fresh ↔ v ∈ ns ∧ st.label v = none ∧ passable v = true
  new : ∀ v ∈ fresh, st'.label v = st.label t
  kept : ∀ v, v ∉ fresh → st'.label v = st.label v

theorem foldl_visit (t : V) (ns : List V) {st : Flood V L} (hlabel : st.label t ≠ none)
    (hcolour : colour (st.label t) = st.label t) :
    ∃ fresh, Visited passable t ns st (ns.foldl (visit passable colour t) st) fresh := by
  induction ns generalizing st with
  | nil =>
      refine ⟨[], rfl, ?_, List.nodup_nil, ?_, ?_, fun _ _ => rfl⟩ <;> simp
  | cons n ns ih =>
      rw [List.foldl_cons]
      by_cases hskip : ((st.label n).isSome || !passable n) = true
      · -- labelled before, or a wall
        have hvisit : visit passable colour t st n = st := if_pos hskip
        rw [hvisit]
        obtain ⟨fresh, h⟩ := ih hlabel hcolour
        refine ⟨fresh, h.read, h.queue, h.nodup, fun v => ?_, h.new, h.kept⟩
        rw [h.mem, List.mem_cons]
        constructor
        · rintro ⟨hv, hnone, hpass⟩
          exact ⟨.inr hv, hnone, hpass⟩
        · rintro ⟨rfl | hv, hnone, hpass⟩
          · simp [hnone, hpass] at hskip
          · exact ⟨hv, hnone, hpass⟩
      · have hvisit : visit passable colour t st n = { st with
            label := Function.update st.label n (colour (st.label t)),
            queue := st.queue ++ [n] } := if_neg hskip
        simp only [Bool.or_eq_true, Bool.not_eq_true', not_or, Bool.not_eq_true,
          Option.isSome_eq_false_iff, Option.isNone_iff_eq_none, Bool.not_eq_false] at hskip
        obtain ⟨hnone, hpass⟩ := hskip
        have hne : t ≠ n := by
          rintro rfl
          exact hlabel hnone
        rw [hvisit, hcolour]
        have ht : Function.update st.label n (st.label t) t = st.label t :=
          Function.update_of_ne hne ..
        obtain ⟨fresh, h⟩ := @ih { st with
            label := Function.update st.label n (st.label t), queue := st.queue ++ [n] }
          (by simpa only [ht] using hlabel) (by simpa only [ht] using hcolour)
        have hn : n ∉ fresh := by
          intro hmem
          have hunset := ((h.mem n).mp hmem).2.1
          simp only [Function.update_self] at hunset
          exact hlabel hunset
        refine ⟨n :: fresh, h.read, ?_, List.nodup_cons.mpr ⟨hn, h.nodup⟩, fun v => ?_, ?_, ?_⟩
        · rw [h.queue, List.append_assoc, List.singleton_append]
        · by_cases hv : v = n
          · subst hv
            simp [hnone, hpass]
          · rw [List.mem_cons, h.mem, List.mem_cons]
            simp only [Function.update_of_ne hv]
            simp [hv]
        · intro v hv
          rcases List.mem_cons.mp hv with rfl | hv
          · rw [h.kept v hn]
            simp
          · rw [h.new v hv]
            exact ht
        · intro v hv
          obtain ⟨hvn, hvfresh⟩ := not_or.mp (mt List.mem_cons.mpr hv)
          rw [h.kept v hvfresh]
          exact Function.update_of_ne hvn ..

/-! ## Level by level -/

variable {G : SimpleGraph V} {label : V → Option L} {sources : List V}

/-- The sources have labels that the flood hands on. What they reach has none, and there the
passable neighbours are those of the graph. -/
structure Ground (adj : V → List V) (passable : V → Bool) (colour : Option L → Option L)
    (G : SimpleGraph V) (label : V → Option L) (sources : List V) : Prop where
  nodup : sources.Nodup
  labelled : ∀ s ∈ sources, label s ≠ none
  colour : ∀ s ∈ sources, colour (label s) = label s
  clear : ∀ v, Reached G sources v → v ∈ sources ∨ label v = none
  adj : ∀ t, Reached G sources t → ∀ n, G.Adj t n ↔ n ∈ adj t ∧ passable n = true

/-- The queue holds what is left of level `k`, then what was found of the next one. -/
structure Frontier (G : SimpleGraph V) (label : V → Option L) (sources : List V)
    (st : Flood V L) (k : Nat) (old new : List V) : Prop where
  queue : st.queue = old ++ new
  nodup : (st.read ++ st.queue).Nodup
  listed : ∀ v, v ∈ st.read ++ st.queue ↔ Reached G sources v ∧ st.label v ≠ none
  outside : ∀ v, ¬ Reached G sources v → st.label v = label v
  near : ∀ v, Within G sources k v → st.label v ≠ none
  old : ∀ v ∈ old, Within G sources k v
  new : ∀ v ∈ new, Within G sources (k + 1) v ∧ ¬ Within G sources k v
  closed : ∀ u ∈ st.read, ∀ v, G.Adj u v → st.label v ≠ none
  colour : ∀ v ∈ st.read ++ st.queue, ∃ s, Nearest G sources s v ∧ st.label v = label s

namespace Frontier

variable {st : Flood V L} {k : Nat} {old new : List V}

omit [DecidableEq V] in
theorem start (hground : Ground adj passable colour G label sources) :
    Frontier G label sources ⟨label, [], sources⟩ 0 sources [] := by
  constructor
  · simp
  · simpa using hground.nodup
  · intro v
    rw [List.nil_append]
    constructor
    · exact fun hv => ⟨⟨v, hv, .refl v⟩, hground.labelled v hv⟩
    · rintro ⟨hreach, hlabel⟩
      rcases hground.clear v hreach with hv | hnone
      · exact hv
      · exact absurd hnone hlabel
  · exact fun _ _ => rfl
  · exact fun v hv => hground.labelled v hv.zero
  · exact fun v hv => .source hv
  · exact fun v hv => absurd hv List.not_mem_nil
  · exact fun u hu => absurd hu List.not_mem_nil
  · intro v hv
    exact ⟨v, .self (by simpa using hv), rfl⟩

omit [DecidableEq V] in
/-- A level is done: the next one is all found. -/
theorem shift (h : Frontier G label sources st k [] new) :
    Frontier G label sources st (k + 1) new [] := by
  have hqueue : st.queue = new := by
    rw [h.queue, List.nil_append]
  refine { h with queue := ?_, near := ?_, old := fun v hv => (h.new v hv).1, new := ?_ }
  · rw [hqueue, List.append_nil]
  · intro v hv
    rcases hv.succ with hv | ⟨u, hu, huv⟩
    · exact h.near v hv
    · -- a vertex within the level is not in the queue any more
      have hlisted := (h.listed u).mpr ⟨hu.reached, h.near u hu⟩
      rw [hqueue] at hlisted
      rcases List.mem_append.mp hlisted with hread | hnew
      · exact h.closed u hread v huv
      · exact absurd hu (h.new u hnew).2
  · exact fun v hv => absurd hv List.not_mem_nil

omit [DecidableEq V] in
theorem steady (hground : Ground adj passable colour G label sources)
    (h : Frontier G label sources st k old new) {t : V} (ht : t ∈ st.read ++ st.queue) :
    colour (st.label t) = st.label t := by
  obtain ⟨s, hs, hlabel⟩ := h.colour t ht
  rw [hlabel]
  exact hground.colour s hs.source

/-- A vertex of the level is taken off the queue. -/
theorem pop {t : V} (hground : Ground adj passable colour G label sources)
    (h : Frontier G label sources st k (t :: old) new) :
    ∃ fresh, Frontier G label sources (take adj passable colour st) k old (new ++ fresh) ∧
      (take adj passable colour st).read = st.read ++ [t] := by
  have hqueue : st.queue = t :: (old ++ new) := by
    rw [h.queue, List.cons_append]
  have hin : t ∈ st.read ++ st.queue := by
    simp [hqueue]
  obtain ⟨hreach, hlabel⟩ := (h.listed t).mp hin
  have hnear : Within G sources k t := h.old t List.mem_cons_self
  have htake : take adj passable colour st = (adj t).foldl (visit passable colour t)
      { st with read := st.read ++ [t], queue := old ++ new } := by
    unfold take
    rw [hqueue]
  obtain ⟨fresh, hvisited⟩ : ∃ fresh, Visited passable t (adj t)
      { st with read := st.read ++ [t], queue := old ++ new } (take adj passable colour st)
      fresh := by
    rw [htake]
    exact foldl_visit t (adj t) hlabel (h.steady hground hin)
  have hmem := hvisited.mem
  have hread := hvisited.read
  have hqueue' := hvisited.queue
  have hnew := hvisited.new
  have hkept := hvisited.kept
  simp only at hmem hread hqueue' hnew hkept
  -- what is visited is not within the level, as all that is has a label
  have hfresh : ∀ v ∈ fresh, G.Adj t v ∧ st.label v = none := fun v hv =>
    ⟨(hground.adj t hreach v).mpr ⟨((hmem v).mp hv).1, ((hmem v).mp hv).2.2⟩, ((hmem v).mp hv).2.1⟩
  have hgrow : ∀ v, st.label v ≠ none → (take adj passable colour st).label v ≠ none := by
    intro v hv
    have hnot : v ∉ fresh := fun hmem => hv (hfresh v hmem).2
    rwa [hkept v hnot]
  have hlist : (take adj passable colour st).read ++ (take adj passable colour st).queue =
      (st.read ++ st.queue) ++ fresh := by
    rw [hread, hqueue', hqueue]
    simp
  refine ⟨fresh, ⟨?_, ?_, ?_, ?_, ?_, ?_, ?_, ?_, ?_⟩, hread⟩
  · rw [hqueue', List.append_assoc]
  · rw [hlist, List.nodup_append']
    refine ⟨h.nodup, hvisited.nodup, fun v hv hmem => ?_⟩
    exact ((h.listed v).mp hv).2 (hfresh v hmem).2
  · intro v
    rw [hlist, List.mem_append, h.listed]
    by_cases hv : v ∈ fresh
    · refine ⟨fun _ => ⟨hreach.step (hfresh v hv).1, ?_⟩, fun _ => .inr hv⟩
      rwa [hnew v hv]
    · simp [hv, hkept v hv]
  · intro v hv
    have hnot : v ∉ fresh := fun hmem => hv (hreach.step (hfresh v hmem).1)
    rw [hkept v hnot, h.outside v hv]
  · exact fun v hv => hgrow v (h.near v hv)
  · exact fun v hv => h.old v (List.mem_cons_of_mem t hv)
  · intro v hv
    rcases List.mem_append.mp hv with hv | hv
    · exact h.new v hv
    · exact ⟨hnear.step (hfresh v hv).1, fun hwithin => h.near v hwithin (hfresh v hv).2⟩
  · intro u hu v huv
    rw [hread] at hu
    rcases List.mem_append.mp hu with hu | hu
    · exact hgrow v (h.closed u hu v huv)
    · rw [List.mem_singleton.mp hu] at huv
      by_cases hv : v ∈ fresh
      · rwa [hnew v hv]
      · rw [hkept v hv]
        intro hnone
        obtain ⟨hin, hpass⟩ := (hground.adj t hreach v).mp huv
        exact hv ((hmem v).mpr ⟨hin, hnone, hpass⟩)
  · intro v hv
    rw [hlist] at hv
    rcases List.mem_append.mp hv with hv | hv
    · have hnot : v ∉ fresh := fun hmem => ((h.listed v).mp hv).2 (hfresh v hmem).2
      rw [hkept v hnot]
      exact h.colour v hv
    · obtain ⟨s, hs, hlabel'⟩ := h.colour t hin
      refine ⟨s, hs.step hnear (fun hwithin => h.near v hwithin (hfresh v hv).2)
        (hfresh v hv).1, ?_⟩
      rw [hnew v hv, hlabel']

end Frontier

/-! ## The whole flood -/

/-- The flood is somewhere between its sources and its end. -/
def Flooding (G : SimpleGraph V) (label : V → Option L) (sources : List V) (st : Flood V L) :
    Prop :=
  ∃ k old new, Frontier G label sources st k old new

/-- What the sources reach is all read, each once, and has the label of a nearest source. -/
structure Flooded (G : SimpleGraph V) (label : V → Option L) (sources : List V)
    (st : Flood V L) : Prop where
  dry : st.queue = []
  nodup : st.read.Nodup
  mem : ∀ v, v ∈ st.read ↔ Reached G sources v
  nearest : ∀ v, Reached G sources v → ∃ s, Nearest G sources s v ∧ st.label v = label s
  outside : ∀ v, ¬ Reached G sources v → st.label v = label v

variable {st : Flood V L}

theorem Flooding.take (hground : Ground adj passable colour G label sources)
    (h : Flooding G label sources st) {t : V} {rest : List V} (hqueue : st.queue = t :: rest) :
    Flooding G label sources (take adj passable colour st) ∧
      (Flood.take adj passable colour st).read = st.read ++ [t] := by
  obtain ⟨k, old, new, h⟩ := h
  cases old with
  | nil =>
      have hnew := h.queue
      rw [hqueue, List.nil_append] at hnew
      subst hnew
      obtain ⟨fresh, hfrontier, hread⟩ := h.shift.pop hground
      exact ⟨⟨_, _, _, hfrontier⟩, hread⟩
  | cons t' old =>
      have hhead := h.queue
      rw [hqueue, List.cons_append] at hhead
      obtain ⟨rfl, _⟩ := List.cons.inj hhead
      obtain ⟨fresh, hfrontier, hread⟩ := h.pop hground
      exact ⟨⟨_, _, _, hfrontier⟩, hread⟩

omit [DecidableEq V] in
theorem Flooding.flooded (h : Flooding G label sources st) (hdry : st.queue = []) :
    Flooded G label sources st := by
  obtain ⟨k, old, new, h⟩ := h
  have hlisted : ∀ v, v ∈ st.read ↔ Reached G sources v ∧ st.label v ≠ none := by
    intro v
    rw [← h.listed, hdry, List.append_nil]
  have hsource : ∀ s ∈ sources, st.label s ≠ none := fun s hs =>
    h.near s (.source hs)
  -- along a walk from a source, by induction on its last edge
  have hmem : ∀ v, Reached G sources v → v ∈ st.read := by
    rintro v ⟨s, hs, hreach⟩
    rw [SimpleGraph.reachable_iff_reflTransGen] at hreach
    induction hreach with
    | refl => exact (hlisted s).mpr ⟨⟨s, hs, .refl s⟩, hsource s hs⟩
    | tail _ hadj ih =>
        exact (hlisted _).mpr ⟨((hlisted _).mp ih).1.step hadj, h.closed _ ih _ hadj⟩
  refine ⟨hdry, ?_, fun v => ⟨fun hv => ((hlisted v).mp hv).1, hmem v⟩, fun v hv => ?_, h.outside⟩
  · have hnodup := h.nodup
    rwa [hdry, List.append_nil] at hnodup
  · exact h.colour v (List.mem_append_left _ (hmem v hv))

theorem Flooding.run (hground : Ground adj passable colour G label sources) {U : Finset V}
    (hU : ∀ v, Reached G sources v → v ∈ U) (fuel : Nat) (h : Flooding G label sources st)
    (hfuel : U.card ≤ fuel + st.read.length) :
    Flooded G label sources (run adj passable colour fuel st) := by
  induction fuel generalizing st with
  | zero =>
      refine h.flooded ?_
      obtain ⟨k, old, new, h⟩ := h
      have hsub : (st.read ++ st.queue).toFinset ⊆ U := fun v hv =>
        hU v ((h.listed v).mp (List.mem_toFinset.mp hv)).1
      have hcard := Finset.card_le_card hsub
      rw [List.toFinset_card_of_nodup h.nodup, List.length_append] at hcard
      have hlen : st.queue.length = 0 := by omega
      exact List.length_eq_zero_iff.mp hlen
  | succ fuel ih =>
      cases hqueue : st.queue with
      | nil =>
          rw [run_nil hqueue]
          exact h.flooded hqueue
      | cons t rest =>
          obtain ⟨htake, hread⟩ := h.take hground hqueue
          rw [run_succ]
          refine ih htake ?_
          rw [hread, List.length_append, List.length_singleton]
          omega

/-- **The flood from its sources**, with as much fuel as there are vertices to reach. -/
theorem Ground.flooded (hground : Ground adj passable colour G label sources) {U : Finset V}
    (hU : ∀ v, Reached G sources v → v ∈ U) {fuel : Nat} (hfuel : U.card ≤ fuel) :
    Flooded G label sources (run adj passable colour fuel ⟨label, [], sources⟩) :=
  Flooding.run hground hU fuel ⟨0, sources, [], .start hground⟩ hfuel

end Flood

end Lib
