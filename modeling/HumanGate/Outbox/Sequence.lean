import HumanGate.Model.Outbox

set_option autoImplicit false

/-! # Outbox sequences are dense

A transaction that has numbered an event of an aggregate holds the aggregate's lock until it ends.
So while it has rows of the aggregate that are not committed, nobody else numbers, inserts or
commits rows of it, and its own rows continue the committed ones (`EmitTxn.Continues`). Two
aggregates whose lock texts have the same hash share a lock; that only makes more wait.
-/

namespace HumanGate

open Lib

/-! ## Numbers -/

@[simp] theorem sequencesOf_nil (agg : Aggregate) : sequencesOf [] agg = [] := rfl

@[simp] theorem sequencesOf_append (rows rows' : List OutboxRow) (agg : Aggregate) :
    sequencesOf (rows ++ rows') agg = sequencesOf rows agg ++ sequencesOf rows' agg := by
  unfold sequencesOf
  rw [List.filter_append, List.map_append]

theorem sequencesOf_one (ws : WorkspaceId) (agg agg' : Aggregate) (n : Nat) :
    sequencesOf [⟨ws, agg', n⟩] agg = if agg' = agg then [n] else [] := by
  unfold sequencesOf
  by_cases h : agg' = agg <;> simp [h]

theorem sequencesOf_flatten (batches : List (List OutboxRow)) (agg : Aggregate) :
    sequencesOf batches.flatten agg = (batches.map fun rows => sequencesOf rows agg).flatten := by
  induction batches with
  | nil => rfl
  | cons rows rest ih => rw [List.flatten_cons, sequencesOf_append, ih, List.map_cons,
      List.flatten_cons]

theorem foldr_max_range' (n : Nat) : ∀ start : Nat,
    (List.range' start (n + 1)).foldr max 0 = start + n := by
  induction n with
  | zero => intro start; simp
  | succ n ih =>
      intro start
      rw [List.range'_succ, List.foldr_cons, ih (start + 1)]
      omega

/-- After `n` rows numbered from one on, the next number is `n + 1`. -/
theorem nextSequence_of_dense {rows : List OutboxRow} {agg : Aggregate} {n : Nat}
    (h : sequencesOf rows agg = List.range' 1 n) : nextSequence rows agg = n + 1 := by
  unfold nextSequence maxSequence
  rw [h]
  cases n with
  | zero => rfl
  | succ n =>
      rw [foldr_max_range']
      omega

theorem not_sequenceTaken_of_dense {rows : List OutboxRow} {agg : Aggregate} {n : Nat}
    (h : sequencesOf rows agg = List.range' 1 n) : sequenceTaken rows agg (n + 1) = false := by
  unfold sequenceTaken
  rw [h, List.contains_eq_mem]
  simp only [List.mem_range'_1, decide_eq_false_iff_not]
  omega

/-! ## The invariant -/

section Invariant

variable (hashtext : String → Int)

/-- The lock of an aggregate. -/
def Aggregate.key (agg : Aggregate) : Int := hashtext agg.lockText

/-- The rows of a transaction continue the committed ones, of which `base` says how many there are
for each aggregate. It holds the lock of every aggregate it has numbered. -/
structure EmitTxn.Continues (base : Aggregate → Nat) (t : EmitTxn) : Prop where
  numbers : ∀ agg, sequencesOf t.inserted agg
    = List.range' (base agg + 1) (sequencesOf t.inserted agg).length
  holds : ∀ agg, sequencesOf t.inserted agg ≠ [] → agg.key hashtext ∈ t.locks
  numbering : ∀ c ∈ t.call, c.step = .number → c.aggregate.key hashtext ∈ t.locks
  inserting : ∀ c ∈ t.call, ∀ n, c.step = .insert n → c.aggregate.key hashtext ∈ t.locks ∧
    n = base c.aggregate + (sequencesOf t.inserted c.aggregate).length + 1

/-- How many events of the aggregate are committed. -/
def OutboxState.count (s : OutboxState) (agg : Aggregate) : Nat := (sequencesOf s.rows agg).length

structure Dense (s : OutboxState) : Prop where
  committed : ∀ agg, sequencesOf s.rows agg = List.range' 1 (s.count agg)
  txns : ∀ t ∈ s.txns, t.Continues hashtext s.count
  locks : ∀ (i j : Nat) (t u : EmitTxn), s.txns[i]? = some t → s.txns[j]? = some u → i ≠ j →
    ∀ k ∈ t.locks, k ∉ u.locks

end Invariant

variable {hashtext : String → Int}

/-- A transaction without rows and outside of calls. -/
theorem EmitTxn.idle_continues {t : EmitTxn} (hrows : t.inserted = []) (hcall : t.call = none)
    (base : Aggregate → Nat) : t.Continues hashtext base where
  numbers agg := by
    rw [hrows]
    rfl
  holds agg h := by
    rw [hrows] at h
    exact absurd rfl h
  numbering c h := by
    rw [hcall] at h
    cases h
  inserting c h := by
    rw [hcall] at h
    cases h

/-- A transaction does not notice commits of aggregates whose lock it does not hold. -/
theorem EmitTxn.Continues.rebase {base base' : Aggregate → Nat} {t : EmitTxn}
    (h : t.Continues hashtext base)
    (hbase : ∀ agg, base' agg = base agg ∨ agg.key hashtext ∉ t.locks) :
    t.Continues hashtext base' where
  numbers agg := by
    rcases hbase agg with heq | hfree
    · rw [heq]
      exact h.numbers agg
    · have hnone : sequencesOf t.inserted agg = [] := by
        by_contra hsome
        exact hfree (h.holds agg hsome)
      rw [hnone]
      rfl
  holds := h.holds
  numbering := h.numbering
  inserting c hc n hn := by
    obtain ⟨hheld, hval⟩ := h.inserting c hc n hn
    rcases hbase c.aggregate with heq | hfree
    · exact ⟨hheld, by rw [heq]; exact hval⟩
    · exact absurd hheld hfree

/-- The rows that the query sees are numbered from one on. -/
theorem Dense.seen {s : OutboxState} (h : Dense hashtext s) {t : EmitTxn} (ht : t ∈ s.txns)
    (agg : Aggregate) : sequencesOf (s.rows ++ t.inserted) agg
      = List.range' 1 (s.count agg + (sequencesOf t.inserted agg).length) := by
  rw [sequencesOf_append, h.committed agg, (h.txns t ht).numbers agg, List.length_range',
    List.range'_append_1.symm]
  rw [Nat.add_comm 1]

/-! ## Steps -/

/-- A transaction is replaced by one that continues the committed rows and takes no lock that
another holds. -/
theorem Dense.replace {s : OutboxState} (h : Dense hashtext s) {i : Nat} {t t' : EmitTxn}
    (ht : s.txns[i]? = some t) (hcont : t'.Continues hashtext s.count)
    (hlocks : ∀ k ∈ t'.locks, k ∈ t.locks ∨
      ∀ j u, j ≠ i → s.txns[j]? = some u → k ∉ u.locks) :
    Dense hashtext { s with txns := s.txns.modify i fun _ => t' } where
  committed := h.committed
  txns := Table.forall_replace hcont fun j u _ hu => h.txns u (Table.mem_of_get hu)
  locks := by
    -- the lock of the new transaction against the lock of another
    have hfree : ∀ (j : Nat) (u : EmitTxn), j ≠ i → s.txns[j]? = some u → ∀ k ∈ t'.locks,
        k ∉ u.locks := by
      intro j u hj hu k hk
      rcases hlocks k hk with hold | hnew
      · exact h.locks i j t u ht hu (Ne.symm hj) k hold
      · exact hnew j u hj hu
    intro j l u v hu hv hjl k hku hkv
    simp only [List.getElem?_modify] at hu hv
    by_cases hj : i = j
    · subst hj
      have hut : t' = u := by simpa [ht] using hu
      subst hut
      simp only [hjl, if_false, Option.map_eq_map, Option.map_id'] at hv
      exact hfree l v (Ne.symm hjl) (by simpa using hv) k hku hkv
    · by_cases hl : i = l
      · subst hl
        have hvt : t' = v := by simpa [ht] using hv
        subst hvt
        exact hfree j u (Ne.symm hj) (by simpa [hj] using hu) k hkv hku
      · exact h.locks j l u v (by simpa [hj] using hu) (by simpa [hl] using hv) hjl k hku hkv

/-- The next statement of a call keeps a transaction's rows in line. -/
theorem Dense.next {s : OutboxState} (h : Dense hashtext s) {t : EmitTxn} (ht : t ∈ s.txns)
    {c : EmitCall} (hc : t.call = some c) :
    (t.next hashtext s.rows c).Continues hashtext s.count := by
  have hcont := h.txns t ht
  unfold EmitTxn.next
  cases hstep : c.step with
  | lock =>
      refine ⟨hcont.numbers, fun agg hsome => List.mem_cons_of_mem _ (hcont.holds agg hsome), ?_,
        ?_⟩
      · intro c' hc' _
        cases hc'
        exact List.mem_cons_self
      · intro c' hc' n hn
        cases hc'
        cases hn
  | number =>
      -- under the lock the number that is read stays the next one
      have hheld := hcont.numbering c hc hstep
      refine ⟨hcont.numbers, hcont.holds, ?_, ?_⟩
      · intro c' hc' hn
        cases hc'
        cases hn
      · intro c' hc' n hn
        cases hc'
        cases hn
        exact ⟨hheld, nextSequence_of_dense (h.seen ht c.aggregate)⟩
  | insert sequence =>
      obtain ⟨hheld, rfl⟩ := hcont.inserting c hc sequence hstep
      -- so it is free when the row is inserted
      have hfree := not_sequenceTaken_of_dense (h.seen ht c.aggregate)
      simp only [hfree, Bool.false_eq_true, if_false]
      refine ⟨fun agg => ?_, fun agg hsome => ?_, fun _ hnone => (by cases hnone),
        fun _ hnone => (by cases hnone)⟩
      · rw [sequencesOf_append, sequencesOf_one]
        by_cases hagg : c.aggregate = agg
        · subst hagg
          rw [if_pos rfl, List.length_append, List.length_singleton, List.range'_1_concat,
            ← hcont.numbers c.aggregate]
          congr 2
          omega
        · rw [if_neg hagg, List.append_nil]
          exact hcont.numbers agg
      · by_cases hagg : c.aggregate = agg
        · subst hagg
          exact hheld
        · rw [sequencesOf_append, sequencesOf_one, if_neg hagg, List.append_nil] at hsome
          exact hcont.holds agg hsome

/-- The locks of a transaction after its next statement. -/
theorem EmitTxn.next_locks {rows : List OutboxRow} {t : EmitTxn} {c : EmitCall} {k : Int}
    (h : k ∈ (t.next hashtext rows c).locks) :
    k ∈ t.locks ∨ (c.step = .lock ∧ k = c.aggregate.key hashtext) := by
  unfold EmitTxn.next at h
  cases hstep : c.step with
  | lock =>
      rw [hstep] at h
      rcases List.mem_cons.mp h with rfl | hold
      · exact .inr ⟨rfl, rfl⟩
      · exact .inl hold
  | number =>
      rw [hstep] at h
      exact .inl h
  | insert sequence =>
      rw [hstep] at h
      simp only at h
      split at h
      · cases h
      · exact .inl h

theorem Dense.statement {s : OutboxState} (h : Dense hashtext s) {i : Nat}
    (hallowed : outboxAllowed hashtext s (.statement i)) :
    Dense hashtext (outboxExec hashtext s (.statement i)) := by
  simp only [outboxExec]
  cases ht : s.txns[i]? with
  | none =>
      rw [List.modify_eq_self (List.getElem?_eq_none_iff.mp ht)]
      exact h
  | some t =>
      rw [Table.modify_eq_replace ht]
      cases hc : t.call with
      | none => exact h.replace ht (h.txns t (Table.mem_of_get ht)) fun k hk => .inl hk
      | some c =>
          refine h.replace ht (h.next (Table.mem_of_get ht) hc) fun k hk => ?_
          rcases EmitTxn.next_locks hk with hold | ⟨hstep, rfl⟩
          · exact .inl hold
          · right
            intro j u hj hu hmem
            have hfree := hallowed t ht c hc (u, j) (List.mem_zipIdx_iff_getElem?.mpr hu) hj
            rw [EmitTxn.blocks, hstep] at hfree
            simp only [List.contains_eq_mem, decide_eq_false_iff_not] at hfree
            exact hfree hmem

theorem count_commit (s : OutboxState) (rows : List OutboxRow) (txns : List EmitTxn)
    (agg : Aggregate) :
    OutboxState.count ⟨s.commits ++ [rows], txns⟩ agg
      = s.count agg + (sequencesOf rows agg).length := by
  unfold OutboxState.count OutboxState.rows
  rw [List.flatten_append, List.flatten_singleton, sequencesOf_append, List.length_append]

theorem Dense.commit {s : OutboxState} (h : Dense hashtext s) {i : Nat} {t : EmitTxn}
    (ht : s.txns[i]? = some t) :
    Dense hashtext { commits := s.commits ++ [t.inserted]
                     txns := s.txns.modify i fun _ => .closed } := by
  have hclosed : Dense hashtext { s with txns := s.txns.modify i fun _ => .closed } :=
    h.replace ht (EmitTxn.idle_continues rfl rfl _) fun k hk => by cases hk
  refine ⟨fun agg => ?_, ?_, hclosed.locks⟩
  · rw [count_commit, ← h.seen (Table.mem_of_get ht) agg]
    simp [OutboxState.rows]
  · refine Table.forall_replace (EmitTxn.idle_continues rfl rfl _) fun j u hj hu => ?_
    refine (h.txns u (Table.mem_of_get hu)).rebase fun agg => ?_
    rw [count_commit]
    by_cases hnone : sequencesOf t.inserted agg = []
    · exact .inl (by rw [hnone]; rfl)
    · right
      have hheld := (h.txns t (Table.mem_of_get ht)).holds agg hnone
      exact h.locks i j t u ht hu (Ne.symm hj) _ hheld

theorem Dense.begin {s : OutboxState} (h : Dense hashtext s) :
    Dense hashtext { s with txns := s.txns ++ [{}] } where
  committed := h.committed
  txns := Table.forall_push h.txns (EmitTxn.idle_continues rfl rfl s.count)
  locks := by
    intro i j t u ht hu hij k hkt hku
    rcases Table.get_push ht with ht | ⟨_, rfl⟩
    · rcases Table.get_push hu with hu | ⟨_, rfl⟩
      · exact h.locks i j t u ht hu hij k hkt hku
      · cases hku
    · cases hkt

theorem Dense.emit {s : OutboxState} (h : Dense hashtext s) (i : Nat) (ws : WorkspaceId)
    (agg : Aggregate) : Dense hashtext (outboxExec hashtext s (.emit i ws agg)) := by
  simp only [outboxExec]
  cases ht : s.txns[i]? with
  | none =>
      rw [List.modify_eq_self (List.getElem?_eq_none_iff.mp ht)]
      exact h
  | some t =>
      rw [Table.modify_eq_replace ht]
      have hcont := h.txns t (Table.mem_of_get ht)
      split
      · refine h.replace ht ⟨hcont.numbers, hcont.holds, ?_, ?_⟩ fun k hk => .inl hk
        · intro c hc hstep
          cases hc
          cases hstep
        · intro c hc n hstep
          cases hc
          cases hstep
      · exact h.replace ht hcont fun k hk => .inl hk

/-- Every action keeps the sequences dense. -/
theorem outboxExec_dense {s : OutboxState} {a : OutboxAction} (h : Dense hashtext s)
    (hallowed : outboxAllowed hashtext s a) : Dense hashtext (outboxExec hashtext s a) := by
  cases a with
  | begin => exact h.begin
  | emit i ws agg => exact h.emit i ws agg
  | statement i => exact h.statement hallowed
  | commit i =>
      simp only [outboxExec]
      split
      · exact h
      · rename_i t ht
        split
        · exact h.commit ht
        · exact h
  | rollback i =>
      simp only [outboxExec]
      cases ht : s.txns[i]? with
      | none =>
          rw [List.modify_eq_self (List.getElem?_eq_none_iff.mp ht)]
          exact h
      | some t => exact h.replace ht (EmitTxn.idle_continues rfl rfl _) fun k hk => by cases hk

/-! ## Every interleaving -/

/-- **The committed events of an aggregate are numbered from one on**, in the order in which
their transactions committed. -/
theorem outbox_sequences_dense (hashtext : String → Int) (s : OutboxState)
    (h : (emitters hashtext).Reachable s) (agg : Aggregate) :
    sequencesOf s.rows agg = List.range' 1 (sequencesOf s.rows agg).length ∧
    s.commits.Pairwise fun batch later =>
      ∀ m ∈ sequencesOf batch agg, ∀ n ∈ sequencesOf later agg, m < n := by
  have hdense : Dense hashtext s := by
    refine h.invariant (I := Dense hashtext) ?_ fun s a hs ha => outboxExec_dense hs ha
    rintro s rfl
    refine ⟨fun agg => rfl, fun t ht => ?_, fun i j t u ht => ?_⟩
    · cases ht
    · simp at ht
  have hcommitted := hdense.committed agg
  refine ⟨hcommitted, ?_⟩
  -- a sorted list that is made of pieces: every piece is below the later ones
  have hsorted : (sequencesOf s.rows agg).Pairwise (· < ·) := by
    rw [hcommitted]
    exact List.pairwise_lt_range'
  unfold OutboxState.rows at hsorted
  rw [sequencesOf_flatten, List.pairwise_flatten, List.pairwise_map] at hsorted
  exact hsorted.2

instance (hashtext : String → Int) (s : OutboxState) (a : OutboxAction) :
    Decidable ((emitters hashtext).allowed s a) := by
  show Decidable (outboxAllowed hashtext s a)
  unfold outboxAllowed
  split <;> infer_instance

/-- Two transactions emit for one run at the same time, the first one twice; a third one emits
and is rolled back. Under this hash every run has the same lock. -/
def threeEmitters : List OutboxAction :=
  [.begin, .begin, .begin, .emit 0 0 (runAggregate 0), .statement 0, .emit 1 0 (runAggregate 0),
   .statement 0, .statement 0, .emit 0 0 (runAggregate 0), .statement 0, .statement 0,
   .statement 0, .commit 0, .emit 2 0 (runAggregate 0), .statement 2, .statement 2, .statement 2,
   .rollback 2, .statement 1, .statement 1, .statement 1, .commit 1]

theorem three_emitters_dense :
    sequencesOf (threeEmitters.foldl (outboxExec fun text => text.length) {}).rows (runAggregate 0)
      = [1, 2, 3] ∧
    sequencesOf (threeEmitters.foldl (outboxExec fun text => text.length) {}).rows (runAggregate 0)
      = List.range' 1 (sequencesOf
        (threeEmitters.foldl (outboxExec fun text => text.length) {}).rows
        (runAggregate 0)).length := by
  refine ⟨by decide +kernel, (outbox_sequences_dense (fun text => text.length) _ ?_ _).1⟩
  refine .of_legal threeEmitters (.init rfl) ?_
  decide +kernel

end HumanGate
