import HumanGate.Model.Membership

set_option autoImplicit false

/-! # The last admin

A request that takes the role of an admin away counts the admins under a lock, but only if it has
read the target as an admin before, without a lock. A target that becomes an admin after that read
is changed without the count, and may be the last admin (`last_admin_leaves`). If no request changes
a target that has become an admin so, the workspace keeps an admin (`keeps_admin`).
-/

namespace HumanGate

open Lib Lib.Interleaving

variable {s s' : MembershipDb} {i j : Nat} {t u : MemberTxn} {id : MembershipId}

/-! ## Invariants -/

/-- The rows of admins that the request has locked. -/
def MemberStep.locked : MemberStep → List MembershipId
  | .counting _ locked | .counted locked | .decided _ locked | .writing _ locked _
  | .flushed _ locked => locked
  | _ => []

/-- The rows that are still to be locked. -/
def MemberStep.remaining : MemberStep → List MembershipId
  | .counting rows _ => rows
  | _ => []

/-- The row that a change is about. -/
def MemberWrite.row : MemberWrite → Option MembershipId
  | .insert .. => none
  | .setRole id _ | .delete id => some id

/-- The change leaves an admin: it makes the target one, or the target is none, or two admins are
locked. -/
def MemberWrite.Safe (s : MembershipDb) (locked : List MembershipId) : MemberWrite → Prop
  | .insert .. => True
  | .setRole id role => role = .admin ∨ s.adminRow id = false ∨ 2 ≤ locked.length
  | .delete id => s.adminRow id = false ∨ 2 ≤ locked.length

/-- The workspace has an admin, its rows have different ids, and only rows that are there were
locked. -/
structure MembershipDb.Governed (s : MembershipDb) : Prop where
  admin : ∃ m ∈ s.members, m.role = .admin
  nodup : (s.members.map Membership.id).Nodup
  ids : ∀ m ∈ s.members, m.id < s.nextId
  locks : ∀ id i, s.locks id = some i → id < s.nextId

/-- The request at place `i`: what it has counted is locked and still holds. -/
structure MemberTxn.Sound (s : MembershipDb) (i : Nat) (t : MemberTxn) : Prop where
  nodup : (t.step.locked ++ t.step.remaining).Nodup
  locked : ∀ id ∈ t.step.locked, s.locks id = some i ∧ s.adminRow id = true
  decided : ∀ target locked, t.step = .decided target locked → t.request.endsAdmin target = true →
    2 ≤ locked.length
  writing : ∀ target locked permitted, t.step = .writing target locked permitted →
    t.request.endsAdmin target = true → 2 ≤ locked.length
  flushed : ∀ w locked, t.step = .flushed (some w) locked → w.Safe s locked ∧
    ∀ id ∈ w.row, s.locks id = some i

/-- A request that has counted nothing and is about to change nothing. -/
theorem MemberTxn.Sound.idle (hlocked : t.step.locked = []) (hremaining : t.step.remaining = [])
    (hdecided : ∀ target locked, t.step ≠ .decided target locked)
    (hwriting : ∀ target locked p, t.step ≠ .writing target locked p)
    (hflushed : ∀ w locked, t.step ≠ .flushed (some w) locked) : t.Sound s i where
  nodup := by simp [hlocked, hremaining]
  locked := by simp [hlocked]
  decided target locked h := absurd h (hdecided target locked)
  writing target locked p h := absurd h (hwriting target locked p)
  flushed w locked h := absurd h (hflushed w locked)

/-! ## Rows -/

theorem adminRow_iff : s.adminRow id = true ↔ ∃ m ∈ s.members, m.id = id ∧ m.role = .admin := by
  simp [MembershipDb.adminRow]

theorem adminRow_setRole {id' : MembershipId} {role : WorkspaceRole} (hne : id ≠ id') :
    ((MemberWrite.setRole id' role).apply s).adminRow id = true ↔ s.adminRow id = true := by
  rw [adminRow_iff, adminRow_iff]
  unfold MemberWrite.apply
  constructor
  · rintro ⟨m, hm, hid, hrole⟩
    obtain ⟨m', hm', rfl⟩ := List.mem_map.mp hm
    split at hid
    · rename_i heq
      exact absurd (hid.symm.trans heq) hne
    · rename_i heq
      rw [if_neg heq] at hrole
      exact ⟨m', hm', hid, hrole⟩
  · rintro ⟨m, hm, hid, hrole⟩
    have hm' : m.id ≠ id' := fun heq => hne (hid.symm.trans heq)
    refine ⟨m, List.mem_map.mpr ⟨m, hm, ?_⟩, hid, hrole⟩
    rw [if_neg hm']

theorem adminRow_delete {id' : MembershipId} (hne : id ≠ id') :
    ((MemberWrite.delete id').apply s).adminRow id = true ↔ s.adminRow id = true := by
  rw [adminRow_iff, adminRow_iff]
  unfold MemberWrite.apply
  constructor
  · rintro ⟨m, hm, hid, hrole⟩
    exact ⟨m, (List.mem_filter.mp hm).1, hid, hrole⟩
  · rintro ⟨m, hm, hid, hrole⟩
    have hm' : m.id ≠ id' := fun heq => hne (hid.symm.trans heq)
    exact ⟨m, List.mem_filter.mpr ⟨hm, by simpa using hm'⟩, hid, hrole⟩

/-! ## What others may do -/

/-- What the request at place `j` relies on: its locks stay, and so do the rows under them. -/
structure Frame (j : Nat) (s s' : MembershipDb) : Prop where
  locks : ∀ id, s.locks id = some j → s'.locks id = some j
  rows : ∀ id, s.locks id = some j → s'.adminRow id = s.adminRow id

theorem Frame.refl (j : Nat) (s : MembershipDb) : Frame j s s := ⟨fun _ => id, fun _ _ => rfl⟩

theorem Frame.trans {s₁ s₂ s₃ : MembershipDb} (h : Frame j s₁ s₂) (h' : Frame j s₂ s₃) :
    Frame j s₁ s₃ where
  locks id hid := h'.locks id (h.locks id hid)
  rows id hid := (h'.rows id (h.locks id hid)).trans (h.rows id hid)

theorem MemberTxn.Sound.frame (h : u.Sound s j) (hframe : Frame j s s') : u.Sound s' j where
  nodup := h.nodup
  locked id hid := by
    obtain ⟨hlock, hadmin⟩ := h.locked id hid
    exact ⟨hframe.locks id hlock, (hframe.rows id hlock).trans hadmin⟩
  decided := h.decided
  writing := h.writing
  flushed w locked hw := by
    obtain ⟨hsafe, hrow⟩ := h.flushed w locked hw
    refine ⟨?_, fun id hid => hframe.locks id (hrow id hid)⟩
    cases w with
    | insert user role => trivial
    | setRole id role =>
        simp only [MemberWrite.Safe] at hsafe ⊢
        rwa [hframe.rows id (hrow id rfl)]
    | delete id =>
        simp only [MemberWrite.Safe] at hsafe ⊢
        rwa [hframe.rows id (hrow id rfl)]

/-- A lock is taken only on a row that no other request has locked. -/
theorem frame_lock (hfree : s.lockedByOther i id = false) (hj : j ≠ i) :
    Frame j s (s.lock i id) where
  locks id' hid' := by
    have hne : id' ≠ id := by
      rintro rfl
      simp [MembershipDb.lockedByOther, hid', hj] at hfree
    simp [MembershipDb.lock, hne, hid']
  rows _ _ := rfl

theorem frame_release (hj : j ≠ i) : Frame j s (s.release i) where
  locks id hid := by
    simp [MembershipDb.release, hid, hj]
  rows _ _ := rfl

/-- A change is about a row that its request has locked. -/
theorem frame_apply {w : MemberWrite} (hs : s.Governed) (hrow : ∀ id ∈ w.row, s.locks id = some i)
    (hj : j ≠ i) : Frame j s (w.apply s) where
  locks id hid := by
    cases w <;> exact hid
  rows id hid := by
    have hother : ∀ id' ∈ w.row, id ≠ id' := by
      rintro id' hid' rfl
      rw [hrow id hid'] at hid
      exact hj (Option.some.inj hid).symm
    cases w with
    | insert user role =>
        have hne : s.nextId ≠ id := (hs.locks id j hid).ne'
        simp [MembershipDb.adminRow, MemberWrite.apply, hne]
    | setRole id' role =>
        rw [Bool.eq_iff_iff, adminRow_setRole (hother id' rfl)]
    | delete id' =>
        rw [Bool.eq_iff_iff, adminRow_delete (hother id' rfl)]

/-! ## What a change does -/

theorem ids_setRole (s : MembershipDb) (id : MembershipId) (role : WorkspaceRole) :
    ((MemberWrite.setRole id role).apply s).members.map Membership.id
      = s.members.map Membership.id := by
  unfold MemberWrite.apply
  rw [List.map_map]
  refine List.map_congr_left fun m _ => ?_
  simp only [Function.comp_apply]
  split <;> rfl

/-- Among two locked rows, one is not the target. -/
theorem exists_other {locked : List MembershipId} (hnodup : locked.Nodup) (htwo : 2 ≤ locked.length)
    (id : MembershipId) : ∃ id' ∈ locked, id' ≠ id := by
  by_contra hall
  have hsub : locked ⊆ [id] := by
    intro x hx
    exact List.mem_singleton.mpr (by_contra fun hne => hall ⟨x, hx, hne⟩)
  have hlen := (hnodup.subperm hsub).length_le
  simp only [List.length_singleton] at hlen
  omega

/-- **A safe change keeps an admin.** -/
theorem MemberWrite.Safe.governed {w : MemberWrite} {locked : List MembershipId} (hs : s.Governed)
    (hnodup : locked.Nodup) (hlocked : ∀ id ∈ locked, s.adminRow id = true)
    (hsafe : w.Safe s locked) : (w.apply s).Governed := by
  -- an admin other than the target, if the target is one and will not be
  have hadmin : ∀ id, (s.adminRow id = false ∨ 2 ≤ locked.length) →
      ∃ id', id' ≠ id ∧ s.adminRow id' = true := by
    intro id hcase
    rcases hcase with hnone | htwo
    · obtain ⟨m, hm, hrole⟩ := hs.admin
      refine ⟨m.id, fun heq => ?_, adminRow_iff.mpr ⟨m, hm, rfl, hrole⟩⟩
      rw [adminRow_iff.mpr ⟨m, hm, heq, hrole⟩] at hnone
      cases hnone
    · obtain ⟨id', hid', hne⟩ := exists_other hnodup htwo id
      exact ⟨id', hne, hlocked id' hid'⟩
  cases w with
  | insert user role =>
      obtain ⟨m, hm, hrole⟩ := hs.admin
      refine ⟨⟨m, List.mem_append_left _ hm, hrole⟩, ?_, fun m hm => ?_, fun id i hid => ?_⟩
      · simp only [MemberWrite.apply, List.map_append, List.map_cons, List.map_nil]
        refine List.Nodup.append hs.nodup (List.nodup_singleton _) fun id hid hid' => ?_
        obtain ⟨m, hm, rfl⟩ := List.mem_map.mp hid
        exact absurd (List.mem_singleton.mp hid') (hs.ids m hm).ne
      · rcases List.mem_append.mp hm with hm | hm
        · exact (hs.ids m hm).trans (Nat.lt_succ_self _)
        · rw [List.mem_singleton.mp hm]
          exact Nat.lt_succ_self _
      · exact (hs.locks id i hid).trans (Nat.lt_succ_self _)
  | setRole id role =>
      refine ⟨?_, ?_, fun m hm => ?_, hs.locks⟩
      · rcases hsafe with hrole | hcase
        · obtain ⟨m, hm, hmrole⟩ := hs.admin
          refine ⟨_, List.mem_map_of_mem hm, ?_⟩
          split
          · exact hrole
          · exact hmrole
        · obtain ⟨id', hne, hadmin'⟩ := hadmin id hcase
          obtain ⟨m, hm, _, hrole⟩ := adminRow_iff.mp ((adminRow_setRole hne).mpr hadmin')
          exact ⟨m, hm, hrole⟩
      · rw [ids_setRole]
        exact hs.nodup
      · obtain ⟨m', hm', rfl⟩ := List.mem_map.mp hm
        have hlt := hs.ids m' hm'
        split
        · exact hlt
        · exact hlt
  | delete id =>
      refine ⟨?_, ?_, fun m hm => hs.ids m (List.mem_filter.mp hm).1, hs.locks⟩
      · obtain ⟨id', hne, hadmin'⟩ := hadmin id hsafe
        obtain ⟨m, hm, _, hrole⟩ := adminRow_iff.mp ((adminRow_delete hne).mpr hadmin')
        exact ⟨m, hm, hrole⟩
      · exact hs.nodup.sublist (List.filter_sublist.map _)

/-! ## One statement -/

/-- What a statement leaves: an admin, the request as it should be, and nothing that others rely on
has changed. -/
structure Advanced (s : MembershipDb) (i : Nat) (t : MemberTxn) (r : MembershipDb × MemberStep) :
    Prop where
  governed : r.1.Governed
  sound : (t.to r.2).Sound r.1 i
  frame : ∀ j, j ≠ i → Frame j s r.1

/-- The request is about to take the role away from a target that it has read as no admin, and that
is one now. -/
def MemberTxn.hitsNewAdmin (s : MembershipDb) (t : MemberTxn) : Bool :=
  match t.step, t.request with
  | .writing target _ true, .updateRole _ role =>
      role != .admin && target.role != .admin && s.adminRow target.id
  | .writing target _ true, .remove _ => target.role != .admin && s.adminRow target.id
  | _, _ => false

/-- A step that counts nothing and changes nothing. -/
def MemberStep.isIdle : MemberStep → Bool
  | .begun | .authorized _ | .vacant | .targeted _ | .finished _ => true
  | _ => false

theorem sound_idle {step : MemberStep} (h : step.isIdle = true) : (t.to step).Sound s i := by
  cases step <;> first
    | exact MemberTxn.Sound.idle rfl rfl (by simp [MemberTxn.to]) (by simp [MemberTxn.to])
        (by simp [MemberTxn.to])
    | cases h

theorem advanced_idle (hs : s.Governed) {step : MemberStep} (h : step.isIdle = true) :
    Advanced s i t (s, step) :=
  ⟨hs, sound_idle h, fun j _ => Frame.refl j s⟩

/-- The locked rows stay as they are while the request goes on. -/
theorem MemberTxn.Sound.same (h : t.Sound s i) {step : MemberStep}
    (hlocked : step.locked = t.step.locked) (hremaining : step.remaining = [])
    (hdecided : ∀ target locked, step = .decided target locked → t.request.endsAdmin target = true →
      2 ≤ locked.length)
    (hwriting : ∀ target locked permitted, step = .writing target locked permitted →
      t.request.endsAdmin target = true → 2 ≤ locked.length)
    (hflushed : ∀ w locked, step ≠ .flushed (some w) locked) : (t.to step).Sound s i where
  nodup := by
    show (step.locked ++ step.remaining).Nodup
    rw [hlocked, hremaining, List.append_nil]
    exact (List.nodup_append.mp h.nodup).1
  locked id hid := by
    have hid : id ∈ step.locked := hid
    rw [hlocked] at hid
    exact h.locked id hid
  decided := hdecided
  writing := hwriting
  flushed w locked hstep := absurd hstep (hflushed w locked)

theorem advance_counting (hs : s.Governed) (h : t.Sound s i) {rows locked : List MembershipId}
    (hstep : t.step = .counting (id :: rows) locked) (hfree : s.lockedByOther i id = false) :
    Advanced s i t (t.advance s i) := by
  have hnodup := h.nodup
  have hlocked := h.locked
  simp only [hstep, MemberStep.locked, MemberStep.remaining] at hnodup hlocked
  unfold MemberTxn.advance
  rw [hstep]
  simp only
  by_cases hadmin : s.adminRow id = true
  · rw [if_pos hadmin]
    obtain ⟨m, hm, hid, _⟩ := adminRow_iff.mp hadmin
    refine ⟨⟨hs.admin, hs.nodup, hs.ids, fun id' i' hid' => ?_⟩,
      ⟨?_, fun id' hid' => ?_, by simp [MemberTxn.to], by simp [MemberTxn.to],
        by simp [MemberTxn.to]⟩,
      fun j hj => frame_lock hfree hj⟩
    · by_cases heq : id' = id
      · rw [heq, ← hid]
        exact hs.ids m hm
      · simp only [MembershipDb.lock, Function.update_of_ne heq] at hid'
        exact hs.locks id' i' hid'
    · simpa [MemberTxn.to, MemberStep.locked, MemberStep.remaining] using hnodup
    · simp only [MemberTxn.to, MemberStep.locked, List.mem_append, List.mem_singleton] at hid'
      by_cases heq : id' = id
      · rw [heq]
        exact ⟨by simp [MembershipDb.lock], hadmin⟩
      · obtain ⟨hlock, hrow⟩ := hlocked id' (hid'.resolve_right heq)
        exact ⟨by simpa [MembershipDb.lock, heq] using hlock, hrow⟩
  · rw [if_neg hadmin]
    refine ⟨hs, ⟨?_, fun id' hid' => hlocked id' hid', by simp [MemberTxn.to],
      by simp [MemberTxn.to], by simp [MemberTxn.to]⟩, fun j _ => Frame.refl j s⟩
    show (locked ++ rows).Nodup
    exact hnodup.sublist ((List.Sublist.refl locked).append (List.sublist_cons_self id rows))

/-- The change is safe: the target was counted as an admin, or it is none. -/
theorem write_safe (h : t.Sound s i) (hnew : t.hitsNewAdmin s = false) {target : Membership}
    {locked : List MembershipId} (hstep : t.step = .writing target locked true) :
    (t.request.write target.id).Safe s locked := by
  have hguard := h.writing target locked true hstep
  unfold MemberTxn.hitsNewAdmin at hnew
  simp only [hstep] at hnew
  cases hrequest : t.request with
  | updateRole user role =>
      simp only [hrequest, MemberRequest.endsAdmin, Bool.and_eq_true, beq_iff_eq,
        bne_iff_ne] at hguard
      simp only [hrequest, Bool.and_eq_false_iff, bne_eq_false_iff_eq] at hnew
      by_cases hrole : role = .admin
      · exact Or.inl hrole
      · rcases hnew with (hadmin | htarget) | hnone
        · exact absurd hadmin hrole
        · exact Or.inr (Or.inr (hguard ⟨htarget, hrole⟩))
        · exact Or.inr (Or.inl hnone)
  | remove user =>
      simp only [hrequest, MemberRequest.endsAdmin, beq_iff_eq] at hguard
      simp only [hrequest, Bool.and_eq_false_iff, bne_eq_false_iff_eq] at hnew
      rcases hnew with htarget | hnone
      · exact Or.inr (hguard htarget)
      · exact Or.inl hnone
  | invite user role => trivial

theorem endsAdmin_role {r : MemberRequest} {m : Membership} (h : r.endsAdmin m = true) :
    m.role = .admin := by
  cases r with
  | invite => cases h
  | updateRole user role =>
      simp only [MemberRequest.endsAdmin, Bool.and_eq_true, beq_iff_eq] at h
      exact h.1
  | remove user =>
      simp only [MemberRequest.endsAdmin, beq_iff_eq] at h
      exact h

theorem advance_writing (hs : s.Governed) (h : t.Sound s i) {ts : List MemberTxn}
    {target : Membership}
    {locked : List MembershipId} {permitted : Bool}
    (hstep : t.step = .writing target locked permitted)
    (hready : t.waits s ts i = false) (hnew : t.hitsNewAdmin s = false) :
    Advanced s i t (t.advance s i) := by
  have hnodup := (List.nodup_append.mp h.nodup).1
  have hlocked := h.locked
  simp only [hstep, MemberStep.locked] at hnodup hlocked
  simp only [MemberTxn.advance, hstep]
  -- the row is there and the policy lets the write through, or nothing is written
  by_cases hfound : (permitted && s.hasRow target.id) = true
  · rw [if_pos hfound]
    obtain ⟨hpermitted, hrow⟩ := Bool.and_eq_true_iff.mp hfound
    rw [hpermitted] at hstep
    have hsafe := write_safe h hnew hstep
    have hfree : s.lockedByOther i target.id = false := by
      unfold MemberTxn.waits at hready
      rw [hstep] at hready
      exact hready
    obtain ⟨m, hm, hid⟩ : ∃ m ∈ s.members, m.id = target.id := by
      simpa [MembershipDb.hasRow] using hrow
    refine ⟨⟨hs.admin, hs.nodup, hs.ids, fun id' i' hid' => ?_⟩,
      ⟨?_, fun id' hid' => ?_, by simp [MemberTxn.to], by simp [MemberTxn.to],
        fun w locked' hw => ?_⟩,
      fun j hj => frame_lock hfree hj⟩
    · by_cases heq : id' = target.id
      · rw [heq, ← hid]
        exact hs.ids m hm
      · simp only [MembershipDb.lock, Function.update_of_ne heq] at hid'
        exact hs.locks id' i' hid'
    · show (locked ++ []).Nodup
      rwa [List.append_nil]
    · obtain ⟨hlock, hadmin⟩ := hlocked id' hid'
      by_cases heq : id' = target.id
      · exact ⟨by simp [MembershipDb.lock, heq], hadmin⟩
      · exact ⟨by simpa [MembershipDb.lock, heq] using hlock, hadmin⟩
    · cases hw
      refine ⟨?_, fun id' hid' => ?_⟩
      · cases hrequest : t.request <;> rw [hrequest] at hsafe <;> exact hsafe
      · have heq : id' = target.id := by
          cases hrequest : t.request <;> rw [hrequest] at hid' <;>
            simp [MemberRequest.write, MemberWrite.row] at hid' <;> exact hid'.symm
        simp [MembershipDb.lock, heq]
  · rw [if_neg hfound]
    cases hrequest : t.request with
    | remove user =>
        exact ⟨hs, h.same (by rw [hstep]; rfl) rfl (by simp [MemberRequest.missed])
          (by simp [MemberRequest.missed]) (by simp [MemberRequest.missed]),
          fun j _ => Frame.refl j s⟩
    | updateRole user role => exact advanced_idle hs rfl
    | invite user role => exact advanced_idle hs rfl

theorem advance_spec (hs : s.Governed) (h : t.Sound s i) {ts : List MemberTxn}
    (hready : t.waits s ts i = false) (hnew : t.hitsNewAdmin s = false) :
    Advanced s i t (t.advance s i) := by
  cases hstep : t.step with
  | begun =>
      simp only [MemberTxn.advance, hstep]
      refine advanced_idle hs ?_
      unfold MemberTxn.authorize
      split <;> first | rfl | (split <;> rfl)
  | authorized caller =>
      simp only [MemberTxn.advance, hstep]
      refine advanced_idle hs ?_
      unfold MemberTxn.findTarget
      split <;> rfl
  | vacant =>
      simp only [MemberTxn.advance, hstep]
      unfold MemberTxn.insert
      split
      · simp only
        split
        · -- an insert is safe and has no row yet
          refine ⟨hs, ⟨List.nodup_nil, by simp [MemberTxn.to, MemberStep.locked],
            by simp [MemberTxn.to], by simp [MemberTxn.to], fun w locked hw => ?_⟩,
            fun j _ => Frame.refl j s⟩
          cases hw
          exact ⟨trivial, by simp [MemberWrite.row]⟩
        · exact advanced_idle hs rfl
      · exact advanced_idle hs rfl
  | targeted target =>
      simp only [MemberTxn.advance, hstep]
      split
      · refine ⟨hs, ⟨?_, by simp [MemberTxn.to, MemberStep.locked], by simp [MemberTxn.to],
          by simp [MemberTxn.to], by simp [MemberTxn.to]⟩, fun j _ => Frame.refl j s⟩
        show (t.selectAdmins s).Nodup
        unfold MemberTxn.selectAdmins
        split
        · exact hs.nodup.sublist (List.filter_sublist.map _)
        · exact List.nodup_nil
      · rename_i hends
        refine ⟨hs, h.same (by rw [hstep]; rfl) rfl (fun target' locked' hd hends' => ?_) (by simp)
          (by simp), fun j _ => Frame.refl j s⟩
        cases hd
        exact absurd hends' hends
  | counting rows locked =>
      cases rows with
      | nil =>
          simp only [MemberTxn.advance, hstep]
          exact ⟨hs, h.same (by rw [hstep]; rfl) rfl (by simp) (by simp) (by simp),
            fun j _ => Frame.refl j s⟩
      | cons id rows =>
          unfold MemberTxn.waits at hready
          rw [hstep] at hready
          exact advance_counting hs h hstep hready
  | counted locked =>
      simp only [MemberTxn.advance, hstep]
      unfold MemberTxn.ensureAdmin
      split
      · exact advanced_idle hs rfl
      · split
        · exact advanced_idle hs rfl
        · rename_i m _ hcount
          refine ⟨hs, h.same (by rw [hstep]; rfl) rfl (fun target' locked' hd hends => ?_) (by simp)
            (by simp), fun j _ => Frame.refl j s⟩
          cases hd
          have hadmin := endsAdmin_role hends
          by_contra hlt
          exact hcount ⟨hadmin, by omega⟩
  | decided target locked =>
      have hguard := h.decided target locked hstep
      simp only [MemberTxn.advance, hstep]
      have hwriting : Advanced s i t (s, .writing target locked (t.permitted s target)) := by
        refine ⟨hs, h.same (by rw [hstep]; rfl) rfl (by simp) (fun target' locked' p hw hends => ?_)
          (by simp), fun j _ => Frame.refl j s⟩
        cases hw
        exact hguard hends
      unfold MemberTxn.startWrite
      split
      · split
        · exact ⟨hs, h.same (by rw [hstep]; rfl) rfl (by simp) (by simp) (by simp),
            fun j _ => Frame.refl j s⟩
        · exact hwriting
      · exact hwriting
  | writing target locked permitted => exact advance_writing hs h hstep hready hnew
  | flushed w locked =>
      cases w with
      | none =>
          simp only [MemberTxn.advance, hstep]
          exact advanced_idle hs rfl
      | some w =>
          obtain ⟨hsafe, hrow⟩ := h.flushed w locked hstep
          have hnodup := (List.nodup_append.mp h.nodup).1
          have hlocked := h.locked
          simp only [hstep, MemberStep.locked] at hnodup hlocked
          simp only [MemberTxn.advance, hstep]
          exact ⟨hsafe.governed hs hnodup fun id hid => (hlocked id hid).2, sound_idle rfl,
            fun j hj => frame_apply hs hrow hj⟩
  | finished error =>
      simp only [MemberTxn.advance, hstep]
      exact advanced_idle hs rfl

theorem governed_release (hs : s.Governed) : (s.release i).Governed where
  admin := hs.admin
  nodup := hs.nodup
  ids := hs.ids
  locks id j hid := by
    simp only [MembershipDb.release] at hid
    split at hid
    · cases hid
    · exact hs.locks id j hid

/-- What a step of the request at place `i` leaves. -/
theorem next_spec (hs : s.Governed) (h : t.Sound s i) {ts : List MemberTxn} (ht : ts[i]? = some t)
    {c : Fate} (hready : memberReady s ts i c) (hnew : c = .go → t.hitsNewAdmin s = false) :
    (MemberTxn.next s i t c).1.Governed ∧
      (MemberTxn.next s i t c).2.Sound (MemberTxn.next s i t c).1 i ∧
      ∀ j, j ≠ i → Frame j s (MemberTxn.next s i t c).1 := by
  cases c with
  | abort =>
      unfold MemberTxn.next
      simp only
      split
      · exact ⟨hs, h, fun j _ => Frame.refl j s⟩
      · exact ⟨governed_release hs, sound_idle rfl, fun j hj => frame_release hj⟩
  | go =>
      have hadv := advance_spec hs h (hready t ht) (hnew rfl)
      unfold MemberTxn.next
      simp only
      split
      · rename_i s' error heq
        rw [heq] at hadv
        exact ⟨governed_release hadv.governed, sound_idle rfl,
          fun j hj => (hadv.frame j hj).trans (frame_release hj)⟩
      · rename_i s' step _ heq
        rw [heq] at hadv
        exact ⟨hadv.governed, hadv.sound, hadv.frame⟩

/-! ## Interleavings -/

/-- The request does not take the role away from a target that has become an admin after the
request has read it. -/
def SparesNewAdmins (s : MembershipDb) (ts : List MemberTxn) (i : Nat) : Fate → Prop
  | .abort => True
  | .go => ∀ t ∈ ts[i]?, t.hitsNewAdmin s = false

instance decSparesNewAdmins (s : MembershipDb) (ts : List MemberTxn) (i : Nat) :
    (c : Fate) → Decidable (SparesNewAdmins s ts i c)
  | .abort => isTrue trivial
  | .go => inferInstanceAs (Decidable (∀ t ∈ ts[i]?, t.hitsNewAdmin s = false))

/-- **The workspace keeps an admin** in every interleaving of requests that spare the admins who
were none when they were read. -/
theorem keeps_admin {init : MembershipDb → Prop} {r r₀ : State MembershipDb MemberTxn}
    (hs : r₀.shared.Governed) (hnone : r₀.txns = [])
    (h : ((memberships.restrict SparesNewAdmins).system init).Steps r₀ r) :
    ∃ m ∈ r.shared.members, m.role = .admin := by
  refine (Steps.each (I := MembershipDb.Governed) (J := fun s i t => t.Sound s i) hs hnone
    (fun s i t _ hstart => ?_) (fun s ts i c t hs ht hget hready => ?_)
    (fun s ts i c t j u hs ht hget hready hj hu => ?_) h).1.admin
  · -- a request that has just come relies on nothing
    have hstep : t = t.to .begun := by
      unfold MemberTxn.to
      rw [← show t.step = .begun from hstart]
    rw [hstep]
    exact sound_idle rfl
  · -- its own step keeps an admin, and keeps what the request relies on
    have hspec := next_spec hs ht hget hready.1 fun hc => by
      rw [hc] at hready
      exact hready.2 t hget
    exact ⟨hspec.1, hspec.2.1⟩
  · -- the others keep what they rely on: their locks, and the rows under them
    have hspec := next_spec hs ht hget hready.1 fun hc => by
      rw [hc] at hready
      exact hready.2 t hget
    exact hu.frame (hspec.2.2 j hj)

/-! ## A member who leaves -/

/-- A workspace with an admin, user 1, and an editor, user 2. -/
def teamDb : MembershipDb where
  members := [⟨0, 1, .admin⟩, ⟨1, 2, .editor⟩]
  createdBy := 1
  nextId := 2

theorem teamDb_governed : teamDb.Governed where
  admin := ⟨⟨0, 1, .admin⟩, by decide, rfl⟩
  nodup := by decide
  ids := by decide
  locks _ _ h := nomatch h

/-- The editor is about to leave and has been read. Then the admin makes the editor an admin and
leaves, which is fine with two admins. -/
def leavingOps : List (Op MemberTxn Fate) :=
  [.start { caller := 2, request := .remove 2 },
    .start { caller := 1, request := .updateRole 2 .admin },
    .start { caller := 1, request := .remove 1 }]
    ++ List.replicate 2 (.run 0 .go) ++ List.replicate 6 (.run 1 .go)
    ++ List.replicate 10 (.run 2 .go) ++ List.replicate 4 (.run 0 .go)

/-- In the end the last admin has left. -/
theorem last_admin_leaves :
    teamDb.Governed ∧ (memberships.system fun _ => True).Legal ⟨teamDb, []⟩ leavingOps ∧
      (leavingOps.foldl memberships.exec ⟨teamDb, []⟩).shared.members = [] := by
  exact ⟨teamDb_governed, by decide +kernel, by decide +kernel⟩

/-- The same requests, but the editor is read after becoming an admin. -/
def stayingOps : List (Op MemberTxn Fate) :=
  [.start { caller := 1, request := .updateRole 2 .admin },
    .start { caller := 1, request := .remove 1 },
    .start { caller := 2, request := .remove 2 }]
    ++ List.replicate 6 (.run 0 .go) ++ List.replicate 10 (.run 1 .go)
    ++ List.replicate 8 (.run 2 .go)

theorem stayingOps_legal : ((memberships.restrict SparesNewAdmins).system fun _ => True).Legal
    ⟨teamDb, []⟩ stayingOps := by
  decide +kernel

/-- The last request is refused. -/
theorem last_admin_stays :
    (stayingOps.foldl memberships.exec ⟨teamDb, []⟩).txns.map MemberTxn.step
      = [.finished none, .finished none, .finished (some .lastAdmin)] ∧
    ∃ m ∈ (stayingOps.foldl memberships.exec ⟨teamDb, []⟩).shared.members, m.role = .admin :=
  ⟨by decide +kernel,
    keeps_admin teamDb_governed rfl (System.Steps.of_legal stayingOps stayingOps_legal)⟩

end HumanGate
