import HumanGate.Lib.System

set_option autoImplicit false

/-! # Interleaved transactions

Any number of transactions over a shared committed state, each of which takes one statement at a
time. `ready` says when a statement does not have to wait for others, and `next` what it does to
the committed state and to the transaction, whose place among all is its name for the locks it
takes. What the environment decides (an abort, the time) is the choice that a statement is given.

`Reachable.each` is the rule for properties of a committed state and of each transaction over it.
`Steps.replay` is the rule for atomic commits: if a transaction changes the committed state only by
the statement that ends it, then the committed state is the initial one with the writes of the
transactions that have ended so.
-/

namespace Lib.Interleaving

universe u v w

/-- The next statement is executed, or the database gives up. -/
inductive Fate where
  | go
  | abort
  deriving DecidableEq

/-- When a transaction may start, when its next statement may be executed, and its effect. -/
structure Program (σ : Type u) (τ : Type v) (χ : Type w) where
  starts : σ → τ → Prop
  ready : σ → List τ → Nat → χ → Prop
  next : σ → Nat → τ → χ → σ × τ

/-- The committed state, and the transactions. -/
structure State (σ : Type u) (τ : Type v) where
  shared : σ
  txns : List τ

inductive Op (τ : Type v) (χ : Type w) where
  | start (t : τ)
  | run (i : Nat) (c : χ)

variable {σ : Type u} {τ : Type v} {χ : Type w}

/-- The effect of a step: the statement of a transaction sees the committed state only. -/
def Program.exec (P : Program σ τ χ) (s : State σ τ) : Op τ χ → State σ τ
  | .start t => { s with txns := s.txns ++ [t] }
  | .run i c =>
      match s.txns[i]? with
      | none => s
      | some t => ⟨(P.next s.shared i t c).1, s.txns.set i (P.next s.shared i t c).2⟩

def Program.allowed (P : Program σ τ χ) (s : State σ τ) : Op τ χ → Prop
  | .start t => P.starts s.shared t
  | .run i c => P.ready s.shared s.txns i c

instance decAllowed (P : Program σ τ χ) [∀ s t, Decidable (P.starts s t)]
    [∀ s ts i c, Decidable (P.ready s ts i c)] (s : State σ τ) :
    (o : Op τ χ) → Decidable (P.allowed s o)
  | .start t => inferInstanceAs (Decidable (P.starts s.shared t))
  | .run i c => inferInstanceAs (Decidable (P.ready s.shared s.txns i c))

/-- All interleavings, from a committed state that satisfies `init`. -/
def Program.system (P : Program σ τ χ) (init : σ → Prop) : System (State σ τ) (Op τ χ) where
  init s := init s.shared ∧ s.txns = []
  allowed := P.allowed
  exec := P.exec

instance decSystemAllowed (P : Program σ τ χ) (init : σ → Prop) [∀ s t, Decidable (P.starts s t)]
    [∀ s ts i c, Decidable (P.ready s ts i c)] (s : State σ τ) (o : Op τ χ) :
    Decidable ((P.system init).allowed s o) :=
  decAllowed P s o

/-- The program whose statements are executed only where `cond` holds too. -/
def Program.restrict (P : Program σ τ χ) (cond : σ → List τ → Nat → χ → Prop) : Program σ τ χ :=
  { P with ready := fun s ts i c => P.ready s ts i c ∧ cond s ts i c }

instance decRestrictStarts (P : Program σ τ χ) (cond : σ → List τ → Nat → χ → Prop)
    [∀ s t, Decidable (P.starts s t)] (s : σ) (t : τ) : Decidable ((P.restrict cond).starts s t) :=
  inferInstanceAs (Decidable (P.starts s t))

instance decRestrictReady (P : Program σ τ χ) (cond : σ → List τ → Nat → χ → Prop)
    [∀ s ts i c, Decidable (P.ready s ts i c)] [∀ s ts i c, Decidable (cond s ts i c)] (s : σ)
    (ts : List τ) (i : Nat) (c : χ) : Decidable ((P.restrict cond).ready s ts i c) :=
  inferInstanceAs (Decidable (P.ready s ts i c ∧ cond s ts i c))

variable {P : Program σ τ χ} {init : σ → Prop} {s s₀ : State σ τ}

theorem exec_run {i : Nat} {c : χ} {t : τ} (ht : s.txns[i]? = some t) :
    P.exec s (.run i c) = ⟨(P.next s.shared i t c).1, s.txns.set i (P.next s.shared i t c).2⟩ := by
  simp only [Program.exec, ht]

/-- The runs of the restricted program are runs. -/
theorem Steps.of_restrict {cond : σ → List τ → Nat → χ → Prop}
    (h : ((P.restrict cond).system init).Steps s₀ s) : (P.system init).Steps s₀ s := by
  induction h with
  | refl => exact .refl
  | @step t o _ hallowed ih =>
      refine .step (o := o) ih ?_
      cases o with
      | start t => exact hallowed
      | run i c => exact hallowed.1

/-- **The rule for transactions.** `I` is about the committed state and `J` about a transaction over
it. A statement keeps `I`, the `J` of its own transaction and the `J` of all others. -/
theorem Steps.each {I : σ → Prop} {J : σ → Nat → τ → Prop} (hinit : I s₀.shared)
    (hnone : s₀.txns = []) (hstart : ∀ s i t, I s → P.starts s t → J s i t)
    (hself : ∀ s ts i c t, I s → J s i t → ts[i]? = some t → P.ready s ts i c →
      I (P.next s i t c).1 ∧ J (P.next s i t c).1 i (P.next s i t c).2)
    (hothers : ∀ s ts i c t j u, I s → J s i t → ts[i]? = some t → P.ready s ts i c → j ≠ i →
      J s j u → J (P.next s i t c).1 j u)
    (h : (P.system init).Steps s₀ s) :
    I s.shared ∧ ∀ i t, s.txns[i]? = some t → J s.shared i t := by
  induction h with
  | refl => exact ⟨hinit, by simp [hnone]⟩
  | @step s o _ hallowed ih =>
      obtain ⟨hI, hJ⟩ := ih
      cases o with
      | start t =>
          refine ⟨hI, fun j u hu => ?_⟩
          have hu : (s.txns ++ [t])[j]? = some u := hu
          rw [List.getElem?_append] at hu
          split at hu
          · exact hJ j u hu
          · rw [List.mem_singleton.mp (List.mem_of_getElem? hu)]
            exact hstart s.shared j t hI hallowed
      | run i c =>
          cases ht : s.txns[i]? with
          | none =>
              have hsame : (P.system init).exec s (.run i c) = s := by
                show P.exec s (.run i c) = s
                simp only [Program.exec, ht]
              rw [hsame]
              exact ⟨hI, hJ⟩
          | some t =>
              have hexec : (P.system init).exec s (.run i c) = _ := exec_run ht
              rw [hexec]
              -- the transaction in place `i` takes the step, the others see it
              obtain ⟨hI', hJ'⟩ := hself s.shared s.txns i c t hI (hJ i t ht) ht hallowed
              refine ⟨hI', fun j u hu => ?_⟩
              by_cases hj : j = i
              · subst hj
                rw [List.getElem?_set_self (List.getElem?_eq_some_iff.mp ht).1] at hu
                cases hu
                exact hJ'
              · rw [List.getElem?_set_ne (Ne.symm hj)] at hu
                exact hothers s.shared s.txns i c t j u hI (hJ i t ht) ht hallowed hj (hJ j u hu)

/-- A transaction in its place among the others. -/
theorem exists_split {ts : List τ} {i : Nat} {t : τ} (ht : ts[i]? = some t) (t' : τ) :
    ∃ before after, ts = before ++ t :: after ∧ ts.set i t' = before ++ t' :: after := by
  obtain ⟨hi, hget⟩ := List.getElem?_eq_some_iff.mp ht
  refine ⟨ts.take i, ts.drop (i + 1), ?_, ?_⟩
  · rw [← hget, List.getElem_cons_drop, List.take_append_drop]
  · rw [List.set_eq_take_append_cons_drop, if_pos hi]

/-- **The rule for atomic commits.** A statement changes the committed state only if it ends its
transaction with a commit, and then by the writes of the transaction. -/
theorem Steps.replay {done : τ → Bool} {write : τ → σ → σ} (hnone : s₀.txns = [])
    (hstart : ∀ s t, P.starts s t → done t = false)
    (hstep : ∀ s i t c, done t = false →
      ((P.next s i t c).1 = s ∧ done (P.next s i t c).2 = false) ∨
      ((P.next s i t c).1 = write (P.next s i t c).2 s ∧ done (P.next s i t c).2 = true))
    (hdone : ∀ s i t c, done t = true → P.next s i t c = (s, t))
    (h : (P.system init).Steps s₀ s) :
    ∃ order : List τ, order.Perm (s.txns.filter done) ∧
      s.shared = order.foldl (fun s t => write t s) s₀.shared := by
  induction h with
  | refl => exact ⟨[], by simp [hnone], rfl⟩
  | @step s o _ hallowed ih =>
      obtain ⟨order, hperm, hshared⟩ := ih
      -- a transaction that begins is not done
      cases o with
      | start t =>
          refine ⟨order, ?_, hshared⟩
          have hfilter : (s.txns ++ [t]).filter done = s.txns.filter done := by
            simp [List.filter_append, hstart s.shared t hallowed]
          show order.Perm ((s.txns ++ [t]).filter done)
          rwa [hfilter]
      | run i c =>
          cases ht : s.txns[i]? with
          | none =>
              have hsame : (P.system init).exec s (.run i c) = s := by
                show P.exec s (.run i c) = s
                simp only [Program.exec, ht]
              rw [hsame]
              exact ⟨order, hperm, hshared⟩
          | some t =>
              have hexec : (P.system init).exec s (.run i c) = _ := exec_run ht
              rw [hexec]
              obtain ⟨before, after, hsplit, hset⟩ := exists_split ht (P.next s.shared i t c).2
              rw [hsplit] at hperm
              rw [hset]
              -- a transaction that is done stays as it is
              by_cases hfin : done t = true
              · rw [hdone s.shared i t c hfin]
                exact ⟨order, hperm, hshared⟩
              · have hopen := Bool.eq_false_iff.mpr hfin
                simp only [List.filter_append, List.filter_cons, hopen, Bool.false_eq_true,
                  if_false] at hperm
                rcases hstep s.shared i t c hopen with ⟨hsame, hopen'⟩ | ⟨hwrite, hfin'⟩
                · refine ⟨order, ?_, hsame.trans hshared⟩
                  simpa [List.filter_append, hopen'] using hperm
                · -- it is done with this step, and comes last
                  refine ⟨order ++ [(P.next s.shared i t c).2], ?_, ?_⟩
                  · simp only [List.filter_append, List.filter_cons, hfin', if_true]
                    exact (List.perm_append_singleton _ _).trans
                      ((hperm.cons _).trans List.perm_middle.symm)
                  · rw [List.foldl_append, ← hshared]
                    exact hwrite

end Lib.Interleaving
