import HumanGate.Lib.Table

set_option autoImplicit false

/-! # A budget with windows

The abstract idea of a spending cap: amounts already *spent*, each at an instant, amounts
currently *held* for work in progress, and windows (this day, this month) that limit what is
spent since the window's start plus all that is held. A hold is granted only if it fits into
every window; settling a hold spends at most what was held.

`Move.within` is the reason such a scheme is safe whatever the order of its moves: the only
move that raises a window's total is the guarded one, settling exchanges held for spent, and
the passing of time can only take spent amounts out of a window, because window starts are
monotone.
-/

namespace Lib.Budget

universe u

variable {T M : Type u} [LinearOrder T] [AddCommMonoid M] [LinearOrder M]
  [IsOrderedAddMonoid M] [CanonicallyOrderedAdd M]

/-- A window: when it starts, seen from an instant, and how much may be spent or held in it. -/
structure Window (T M : Type u) [LinearOrder T] where
  start : T → T
  start_mono : Monotone start
  cap : M

/-- What has been spent (and when), what is held, and the time. -/
structure State (T M : Type u) where
  clock : T
  spent : List (T × M)
  held : M

/-- What was spent since the start of the current window. -/
def used (w : Window T M) (b : State T M) : M :=
  Table.total (fun e => decide (w.start b.clock ≤ e.1)) (fun e => e.2) b.spent

/-- The window's total is under its cap. -/
def Within (w : Window T M) (b : State T M) : Prop := used w b + b.held ≤ w.cap

/-- What can happen to a budget with the windows `ws`. -/
inductive Move (ws : List (Window T M)) : State T M → State T M → Prop
  | tick {b : State T M} {t : T} : b.clock ≤ t → Move ws b { b with clock := t }
  | hold {b : State T M} {e : M} : (∀ w ∈ ws, used w b + b.held + e ≤ w.cap) →
      Move ws b { b with held := b.held + e }
  | settle {b : State T M} {h e c : M} : b.held = h + e → c ≤ e →
      Move ws b { b with spent := b.spent ++ [(b.clock, c)], held := h }
  | release {b : State T M} {h e : M} : b.held = h + e → Move ws b { b with held := h }

/-- Time only takes spent amounts out of a window. -/
theorem used_tick_le (w : Window T M) (b : State T M) {t : T} (h : b.clock ≤ t) :
    used w { b with clock := t } ≤ used w b := by
  refine Table.total_mono _ ?_ b.spent
  intro e he
  simp only [decide_eq_true_eq] at he ⊢
  exact le_trans (w.start_mono h) he

theorem used_settle_le (w : Window T M) (b : State T M) (c : M) :
    used w { b with spent := b.spent ++ [(b.clock, c)] } ≤ used w b + c := by
  unfold used
  rw [Table.total_push]
  refine add_le_add (le_refl _) ?_
  split
  · exact le_refl _
  · exact zero_le

/-- **Every move keeps every window under its cap.** -/
theorem Move.within {ws : List (Window T M)} {b b' : State T M} (hm : Move ws b b')
    (hb : ∀ w ∈ ws, Within w b) : ∀ w ∈ ws, Within w b' := by
  intro w hw
  have hwb : used w b + b.held ≤ w.cap := hb w hw
  cases hm with
  | tick ht =>
      exact le_trans (add_le_add (used_tick_le w b ht) (le_refl _)) hwb
  | hold hfit =>
      show used w b + (b.held + _) ≤ w.cap
      rw [← add_assoc]
      exact hfit w hw
  | @settle h e c heq hce =>
      -- the settled amount is at most what it was held for
      have hle : used w { b with spent := b.spent ++ [(b.clock, c)] } + h
          ≤ used w b + (h + e) := by
        calc used w { b with spent := b.spent ++ [(b.clock, c)] } + h
            ≤ (used w b + c) + h := add_le_add (used_settle_le w b c) (le_refl _)
          _ ≤ (used w b + e) + h := add_le_add (add_le_add (le_refl _) hce) (le_refl _)
          _ = used w b + (h + e) := by rw [add_assoc, add_comm e h]
      rw [heq] at hwb
      exact le_trans hle hwb
  | @release h e heq =>
      rw [heq] at hwb
      refine le_trans (add_le_add (le_refl (used w b)) ?_) hwb
      exact le_self_add

/-- Several moves in a row. -/
theorem moves_within {ws : List (Window T M)} {b b' : State T M}
    (hm : Relation.ReflTransGen (Move ws) b b') (hb : ∀ w ∈ ws, Within w b) :
    ∀ w ∈ ws, Within w b' := by
  induction hm with
  | refl => exact hb
  | tail _ hmove ih => exact hmove.within ih

omit [IsOrderedAddMonoid M] in
/-- An empty budget is under every cap. -/
theorem within_empty (w : Window T M) (t : T) : Within w ⟨t, [], 0⟩ := by
  show Table.total _ _ [] + (0 : M) ≤ w.cap
  rw [Table.total_nil, add_zero]
  exact zero_le

end Lib.Budget
