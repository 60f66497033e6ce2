import Mathlib.Tactic

set_option autoImplicit false

/-! # Tables as lists of rows

A table is the list of its rows in the order of insertion, and a row's identifier is its
position. A new row therefore has a fresh identifier (the length of the table), identifiers
are unique, and `rows[i]?` is the primary-key lookup. `List.modify i` is `UPDATE ... WHERE
id = i`; it does nothing when there is no such row.

The lemmas say what is still true of the rows after an insert or an update, and what happens
to a sum over a filtered table.
-/

namespace Lib.Table

universe u

variable {ρ : Type u}

/-! ## Rows after an insert or an update -/

/-- A row of an updated table is an old row or the updated one. -/
theorem mem_modify {rows : List ρ} {i : Nat} {f : ρ → ρ} {r : ρ} (h : r ∈ rows.modify i f) :
    r ∈ rows ∨ ∃ old, rows[i]? = some old ∧ r = f old := by
  obtain ⟨j, hj⟩ := List.mem_iff_getElem?.mp h
  rw [List.getElem?_modify] at hj
  cases hrow : rows[j]? with
  | none => simp [hrow] at hj
  | some old =>
      rw [hrow] at hj
      by_cases hij : i = j
      · subst hij
        exact Or.inr ⟨old, hrow, by simpa using hj.symm⟩
      · refine Or.inl (List.mem_iff_getElem?.mpr ⟨j, ?_⟩)
        rw [hrow]; simpa [hij] using hj

/-- A property of all rows survives an update that establishes it of the updated row. -/
theorem forall_modify {P : ρ → Prop} {rows : List ρ} {i : Nat} {f : ρ → ρ}
    (h : ∀ r ∈ rows, P r) (hf : ∀ old, rows[i]? = some old → P (f old)) :
    ∀ r ∈ rows.modify i f, P r := by
  intro r hr
  rcases mem_modify hr with hr | ⟨old, ho, rfl⟩
  · exact h r hr
  · exact hf old ho

/-- After a row is replaced: the new row and the rows at other positions. -/
theorem forall_replace {P : ρ → Prop} {rows : List ρ} {i : Nat} {new : ρ} (hnew : P new)
    (h : ∀ j r, j ≠ i → rows[j]? = some r → P r) : ∀ r ∈ rows.modify i (fun _ => new), P r := by
  intro r hr
  obtain ⟨j, hj⟩ := List.mem_iff_getElem?.mp hr
  rw [List.getElem?_modify] at hj
  cases hrow : rows[j]? with
  | none => simp [hrow] at hj
  | some old =>
      rw [hrow] at hj
      by_cases hij : i = j
      · have : new = r := by simpa [hij] using hj
        rw [← this]; exact hnew
      · have : old = r := by simpa [hij] using hj
        rw [← this]; exact h j old (Ne.symm hij) hrow

/-- A property of all rows survives the insert of a row that has it. -/
theorem forall_push {P : ρ → Prop} {rows : List ρ} {new : ρ} (h : ∀ r ∈ rows, P r)
    (hnew : P new) : ∀ r ∈ rows ++ [new], P r := by
  intro r hr
  rcases List.mem_append.mp hr with hr | hr
  · exact h r hr
  · rw [List.mem_singleton.mp hr]; exact hnew

/-- The row at `j` after an update at `i`. -/
theorem get_modify {rows : List ρ} {i j : Nat} {f : ρ → ρ} {r : ρ}
    (h : (rows.modify i f)[j]? = some r) :
    ∃ old, rows[j]? = some old ∧ ((i = j ∧ r = f old) ∨ (i ≠ j ∧ r = old)) := by
  rw [List.getElem?_modify] at h
  cases hrow : rows[j]? with
  | none => simp [hrow] at h
  | some old =>
      rw [hrow] at h
      refine ⟨old, rfl, ?_⟩
      by_cases hij : i = j
      · exact Or.inl ⟨hij, by simpa [hij] using h.symm⟩
      · exact Or.inr ⟨hij, by simpa [hij] using h.symm⟩

theorem get_modify_self {rows : List ρ} {i : Nat} {f : ρ → ρ} {r : ρ} (h : rows[i]? = some r) :
    (rows.modify i f)[i]? = some (f r) := by
  rw [List.getElem?_modify, h]; simp

/-- An update is the replacement of the row it finds. -/
theorem modify_eq_replace {rows : List ρ} {i : Nat} {r : ρ} (h : rows[i]? = some r) (f : ρ → ρ) :
    rows.modify i f = rows.modify i fun _ => f r := by
  refine List.ext_getElem? fun j => ?_
  rw [List.getElem?_modify, List.getElem?_modify]
  by_cases hij : i = j
  · subst hij
    simp [h]
  · simp [hij]

theorem get_modify_ne {rows : List ρ} {i j : Nat} {f : ρ → ρ} (h : i ≠ j) :
    (rows.modify i f)[j]? = rows[j]? := by
  rw [List.getElem?_modify]
  cases rows[j]? <;> simp [h]

/-- Rows keep their identifier when a row is inserted. -/
theorem get_push_of_some {rows : List ρ} {new : ρ} {j : Nat} {r : ρ} (h : rows[j]? = some r) :
    (rows ++ [new])[j]? = some r := by
  have hj : j < rows.length := (List.getElem?_eq_some_iff.mp h).1
  rw [List.getElem?_append_left hj, h]

/-- A row of an extended table is an old row or the new one, at the fresh identifier. -/
theorem get_push {rows : List ρ} {new : ρ} {j : Nat} {r : ρ} (h : (rows ++ [new])[j]? = some r) :
    rows[j]? = some r ∨ (j = rows.length ∧ r = new) := by
  by_cases hj : j < rows.length
  · rw [List.getElem?_append_left hj] at h; exact Or.inl h
  · rw [List.getElem?_append_right (Nat.le_of_not_lt hj)] at h
    have hz : j - rows.length = 0 := by
      by_contra hne
      rw [List.getElem?_eq_none (by simp; omega)] at h
      cases h
    rw [hz] at h
    exact Or.inr ⟨by omega, by simpa using h.symm⟩

theorem get_push_new (rows : List ρ) (new : ρ) : (rows ++ [new])[rows.length]? = some new := by
  simp

/-- Rows keep their positions when rows are added. -/
theorem get_append_of_some {rows more : List ρ} {j : Nat} {r : ρ} (h : rows[j]? = some r) :
    (rows ++ more)[j]? = some r := by
  rw [List.getElem?_append_left (List.getElem?_eq_some_iff.mp h).1, h]

/-- A looked-up row is a row of the table. -/
theorem mem_of_get {rows : List ρ} {i : Nat} {r : ρ} (h : rows[i]? = some r) : r ∈ rows :=
  List.mem_of_getElem? h

/-- A row other than the updated one is still there. -/
theorem mem_modify_of_ne {rows : List ρ} {i : Nat} {f : ρ → ρ} {old r : ρ}
    (hold : rows[i]? = some old) (hr : r ∈ rows) (hne : r ≠ old) : r ∈ rows.modify i f := by
  obtain ⟨j, hj⟩ := List.mem_iff_getElem?.mp hr
  have hij : i ≠ j := by
    rintro rfl
    rw [hold] at hj
    exact hne (Option.some.inj hj).symm
  exact mem_of_get ((get_modify_ne hij).trans hj)

/-- A column that the update does not write. -/
theorem map_modify_same {κ : Type u} {g : ρ → κ} {f : ρ → ρ} (h : ∀ r, g (f r) = g r) :
    ∀ (rows : List ρ) (i : Nat), (rows.modify i f).map g = rows.map g
  | [], i => by simp
  | r :: rows, 0 => by
      show g (f r) :: rows.map g = _
      rw [h]; rfl
  | r :: rows, i + 1 => by
      show g r :: (rows.modify i f).map g = _
      rw [map_modify_same h rows i]; rfl

/-- An update of each of the rows `ids`. -/
def modifyAll (f : ρ → ρ) : List Nat → List ρ → List ρ
  | [], rows => rows
  | i :: ids, rows => modifyAll f ids (rows.modify i f)

/-- Two updates that commute on a row commute on the table. -/
theorem modify_modify_comm {f g : ρ → ρ} (h : ∀ r, f (g r) = g (f r)) (rows : List ρ)
    (i j : Nat) : (rows.modify j g).modify i f = (rows.modify i f).modify j g := by
  apply List.ext_getElem?
  intro k
  simp only [List.getElem?_modify]
  cases rows[k]? with
  | none => rfl
  | some r =>
      by_cases hi : i = k <;> by_cases hj : j = k <;> simp [hi, hj, h]

theorem modifyAll_modify_comm {f g : ρ → ρ} (h : ∀ r, f (g r) = g (f r)) (j : Nat)
    (ids : List Nat) : ∀ rows : List ρ,
      modifyAll f ids (rows.modify j g) = (modifyAll f ids rows).modify j g := by
  induction ids with
  | nil => intro rows; rfl
  | cons i ids ih =>
      intro rows
      rw [modifyAll, modify_modify_comm h, ih]
      rfl

theorem get_modifyAll_of_notMem {f : ρ → ρ} {j : Nat} {ids : List Nat} (hj : j ∉ ids) :
    ∀ rows : List ρ, (modifyAll f ids rows)[j]? = rows[j]? := by
  induction ids with
  | nil => intro rows; rfl
  | cons i ids ih =>
      intro rows
      rw [List.mem_cons, not_or] at hj
      rw [modifyAll, ih hj.2, get_modify_ne (Ne.symm hj.1)]

/-! ## Selecting rows -/

/-- `SELECT id FROM rows WHERE p`, in the order of the table. -/
def select (p : ρ → Bool) (rows : List ρ) : List Nat :=
  (List.range rows.length).filter fun i => (rows[i]?).any p

theorem mem_select {p : ρ → Bool} {rows : List ρ} {i : Nat} :
    i ∈ select p rows ↔ ∃ r, rows[i]? = some r ∧ p r = true := by
  unfold select
  rw [List.mem_filter, List.mem_range, Option.any_eq_true]
  constructor
  · rintro ⟨_, r, hr, hp⟩
    exact ⟨r, hr, hp⟩
  · rintro ⟨r, hr, hp⟩
    exact ⟨(List.getElem?_eq_some_iff.mp hr).1, r, hr, hp⟩

theorem select_nodup (p : ρ → Bool) (rows : List ρ) : (select p rows).Nodup :=
  List.nodup_range.filter _

theorem length_select (p : ρ → Bool) (rows : List ρ) :
    (select p rows).length = rows.countP p := by
  unfold select
  induction rows using List.reverseRecOn with
  | nil => rfl
  | append_singleton rows r ih =>
      have hold : (List.range rows.length).filter (fun i => ((rows ++ [r])[i]?).any p)
          = (List.range rows.length).filter fun i => (rows[i]?).any p := by
        refine List.filter_congr fun i hi => ?_
        rw [List.getElem?_append_left (List.mem_range.mp hi)]
      rw [List.length_append, List.length_singleton, List.range_succ, List.filter_append,
        List.length_append, hold, ih, List.countP_append]
      by_cases hp : p r = true
      · simp [hp]
      · simp [hp]


/-- A column without repetitions in a selection tells the selected rows apart. -/
theorem eq_of_nodup {κ : Type u} {p : ρ → Bool} {g : ρ → κ} : ∀ {rows : List ρ} {i j : Nat}
    {r r' : ρ}, ((rows.filter p).map g).Nodup → rows[i]? = some r → rows[j]? = some r' →
      p r = true → p r' = true → g r = g r' → i = j
  | [], i, j, r, r', _, hi, _, _, _, _ => by simp at hi
  | x :: rows, i, j, r, r', hnodup, hi, hj, hr, hr', heq => by
      have htail : ((rows.filter p).map g).Nodup := by
        refine hnodup.sublist (List.Sublist.map g ?_)
        exact (List.sublist_cons_self x rows).filter p
      -- the first row is selected, and another row has its value
      have hfirst : ∀ {k : Nat} {y : ρ}, p x = true → rows[k]? = some y → p y = true →
          g x ≠ g y := by
        intro k y hx hk hy hxy
        rw [List.filter_cons_of_pos hx, List.map_cons, List.nodup_cons] at hnodup
        refine hnodup.1 (hxy ▸ List.mem_map_of_mem (List.mem_filter.mpr ⟨?_, hy⟩))
        exact List.mem_of_getElem? hk
      cases i with
      | zero =>
          have hx : x = r := by simpa using hi
          subst hx
          cases j with
          | zero => rfl
          | succ j => exact absurd heq (hfirst hr (by simpa using hj) hr')
      | succ i =>
          cases j with
          | zero =>
              have hx : x = r' := by simpa using hj
              subst hx
              exact absurd heq.symm (hfirst hr' (by simpa using hi) hr)
          | succ j =>
              have hij : i = j :=
                eq_of_nodup htail (by simpa using hi) (by simpa using hj) hr hr' heq
              rw [hij]

/-! ## Filtering rows -/

/-- What an update does to the rows that `p` selects: one of them changes in its place. -/
theorem filter_modify {p : ρ → Bool} {f : ρ → ρ} : ∀ {rows : List ρ} {i : Nat} {r : ρ},
    rows[i]? = some r → ∃ before after,
      rows.filter p = before ++ [r].filter p ++ after ∧
      (rows.modify i f).filter p = before ++ [f r].filter p ++ after
  | [], i, r, h => by simp at h
  | x :: rows, 0, r, h => by
      have hx : x = r := by simpa using h
      subst hx
      refine ⟨[], rows.filter p, ?_, ?_⟩
      · rw [List.nil_append, ← List.filter_append]
        rfl
      · rw [List.nil_append, ← List.filter_append]
        rfl
  | x :: rows, i + 1, r, h => by
      have hrow : rows[i]? = some r := by simpa using h
      obtain ⟨before, after, hrows, hmod⟩ := filter_modify (p := p) (f := f) hrow
      refine ⟨[x].filter p ++ before, after, ?_, ?_⟩
      · rw [List.append_assoc, List.append_assoc, ← List.append_assoc before, ← hrows,
          ← List.filter_append]
        rfl
      · rw [List.append_assoc, List.append_assoc, ← List.append_assoc before, ← hmod,
          ← List.filter_append]
        rfl

/-- An update of a row that is not selected, before or after. -/
theorem filter_modify_of_not {p : ρ → Bool} {f : ρ → ρ} {rows : List ρ} {i : Nat}
    (h : ∀ r, rows[i]? = some r → p r = false ∧ p (f r) = false) :
    (rows.modify i f).filter p = rows.filter p := by
  cases hr : rows[i]? with
  | none =>
      have hlen : rows.length ≤ i := List.getElem?_eq_none_iff.mp hr
      rw [List.modify_eq_self hlen]
  | some r =>
      obtain ⟨before, after, hrows, hmod⟩ := filter_modify (p := p) (f := f) hr
      obtain ⟨hp, hpf⟩ := h r hr
      rw [hrows, hmod]
      simp [hp, hpf]

/-- The only row that is selected. -/
theorem filter_eq_single {p : ρ → Bool} {rows : List ρ} {i : Nat} {r : ρ} (hr : rows[i]? = some r)
    (hp : p r = true) (hone : (rows.filter p).length ≤ 1) : rows.filter p = [r] := by
  have hmem : r ∈ rows.filter p := List.mem_filter.mpr ⟨List.mem_of_getElem? hr, hp⟩
  cases hrows : rows.filter p with
  | nil =>
      rw [hrows] at hmem
      cases hmem
  | cons x rest =>
      rw [hrows] at hmem hone
      cases rest with
      | nil => rw [List.mem_singleton.mp hmem]
      | cons y rest => simp at hone

/-- The only row that is selected is at one place. -/
theorem get_unique {p : ρ → Bool} {rows : List ρ} (hone : (rows.filter p).length ≤ 1) {i j : Nat}
    {a b : ρ} (ha : rows[i]? = some a) (hb : rows[j]? = some b) (hpa : p a = true)
    (hpb : p b = true) : i = j := by
  have hi : i ∈ select p rows := mem_select.mpr ⟨a, ha, hpa⟩
  have hj : j ∈ select p rows := mem_select.mpr ⟨b, hb, hpb⟩
  have hlen : (select p rows).length ≤ 1 := by
    rw [length_select, List.countP_eq_length_filter]
    exact hone
  cases hids : select p rows with
  | nil =>
      rw [hids] at hi
      cases hi
  | cons k rest =>
      rw [hids] at hi hj hlen
      have hnil : rest = [] := List.length_eq_zero_iff.mp (by simpa using hlen)
      subst hnil
      rw [List.mem_singleton.mp hi, List.mem_singleton.mp hj]

/-- An update of the only row that is selected. -/
theorem filter_modify_single {p : ρ → Bool} {f : ρ → ρ} {rows : List ρ} {i : Nat} {r : ρ}
    (hr : rows[i]? = some r) (hp : p r = true) (hone : (rows.filter p).length ≤ 1) :
    (rows.modify i f).filter p = [f r].filter p := by
  obtain ⟨before, after, hrows, hmod⟩ := filter_modify (p := p) (f := f) hr
  rw [hrows, List.length_append, List.length_append, List.filter_cons_of_pos hp,
    List.length_cons] at hone
  have hbefore : before = [] := List.length_eq_zero_iff.mp (by omega)
  have hafter : after = [] := List.length_eq_zero_iff.mp (by omega)
  rw [hmod, hbefore, hafter, List.nil_append, List.append_nil]

/-! ## Counting rows -/

/-- What an update does to the number of rows that `p` selects. -/
theorem countP_modify {p : ρ → Bool} {f : ρ → ρ} : ∀ {rows : List ρ} {i : Nat} {r : ρ},
    rows[i]? = some r →
      (rows.modify i f).countP p + (if p r then 1 else 0)
        = rows.countP p + (if p (f r) then 1 else 0)
  | [], i, r, h => by simp at h
  | x :: rows, 0, r, h => by
      have hx : x = r := by simpa using h
      subst hx
      show (f x :: rows).countP p + _ = _
      rw [List.countP_cons, List.countP_cons]
      omega
  | x :: rows, i + 1, r, h => by
      have ih : (rows.modify i f).countP p + (if p r then 1 else 0)
          = rows.countP p + (if p (f r) then 1 else 0) := countP_modify (by simpa using h)
      show (x :: rows.modify i f).countP p + _ = _
      rw [List.countP_cons, List.countP_cons]
      omega

/-- An update that does not change whether the row is selected. -/
theorem countP_modify_same {p : ρ → Bool} {f : ρ → ρ} {rows : List ρ} {i : Nat}
    (h : ∀ r, rows[i]? = some r → p (f r) = p r) : (rows.modify i f).countP p = rows.countP p := by
  cases hr : rows[i]? with
  | none =>
      have hlen : rows.length ≤ i := List.getElem?_eq_none_iff.mp hr
      rw [List.modify_eq_self hlen]
  | some r =>
      have hcount := countP_modify (p := p) (f := f) hr
      rw [h r hr] at hcount
      omega

theorem countP_push (p : ρ → Bool) (rows : List ρ) (new : ρ) :
    (rows ++ [new]).countP p = rows.countP p + (if p new then 1 else 0) := by
  rw [List.countP_append, List.countP_cons, List.countP_nil, Nat.zero_add]

/-- Rows that are selected were selected before: then the number of them has not grown. -/
theorem countP_le {p : ρ → Bool} : ∀ {rows rows' : List ρ},
    (∀ (i : Nat) (r' : ρ), rows'[i]? = some r' → p r' = true →
      ∃ r, rows[i]? = some r ∧ p r = true) →
      rows'.countP p ≤ rows.countP p
  | rows, [], _ => by simp
  | [], r' :: rest', h => by
      have hnone : (r' :: rest').countP p = 0 := by
        rw [List.countP_eq_zero]
        intro r hr hp
        obtain ⟨i, hi⟩ := List.getElem?_of_mem hr
        obtain ⟨_, hget, _⟩ := h i r hi hp
        simp at hget
      omega
  | r :: rest, r' :: rest', h => by
      have ih : rest'.countP p ≤ rest.countP p :=
        countP_le fun i x hx hp => h (i + 1) x (by simpa using hx) hp
      rw [List.countP_cons, List.countP_cons]
      by_cases hr' : p r' = true
      · obtain ⟨x, hx, hp⟩ := h 0 r' rfl hr'
        have hrx : r = x := by simpa using hx
        subst hrx
        simp only [hr', hp, if_true]
        omega
      · simp only [hr', Bool.false_eq_true, if_false]
        omega

/-- A row that `q` selects and `p` does not. -/
theorem countP_lt {p q : ρ → Bool} (h : ∀ r, p r = true → q r = true) : ∀ {rows : List ρ} {i : Nat}
    {r : ρ}, rows[i]? = some r → q r = true → p r = false → rows.countP p < rows.countP q
  | [], i, r, hr, _, _ => by simp at hr
  | x :: rows, 0, r, hr, hq, hp => by
      have hx : x = r := by simpa using hr
      subst hx
      have hle : rows.countP p ≤ rows.countP q := List.countP_mono_left fun r _ => h r
      rw [List.countP_cons, List.countP_cons]
      simp only [hq, hp, if_true, Bool.false_eq_true, if_false]
      omega
  | x :: rows, i + 1, r, hr, hq, hp => by
      have ih : rows.countP p < rows.countP q := countP_lt h (by simpa using hr) hq hp
      rw [List.countP_cons, List.countP_cons]
      by_cases hx : p x = true
      · simp only [hx, h x hx, if_true]
        omega
      · simp only [hx, Bool.false_eq_true, if_false]
        omega

/-- A batch of updates of rows that are not selected, before or after. -/
theorem filter_modifyAll_same {p : ρ → Bool} {f : ρ → ρ} (hf : ∀ r, p (f r) = false)
    (ids : List Nat) : ∀ {rows : List ρ},
      (∀ i ∈ ids, ∀ r, rows[i]? = some r → p r = false) →
      (modifyAll f ids rows).filter p = rows.filter p := by
  induction ids with
  | nil => intro rows _; rfl
  | cons i rest ih =>
      intro rows h
      have hfirst : (rows.modify i f).filter p = rows.filter p :=
        filter_modify_of_not fun r hr => ⟨h i List.mem_cons_self r hr, hf r⟩
      rw [modifyAll, ih fun j hj r hr => ?_, hfirst]
      obtain ⟨old, hold, ⟨_, rfl⟩ | ⟨_, rfl⟩⟩ := get_modify hr
      · exact hf old
      · exact h j (List.mem_cons_of_mem _ hj) _ hold

/-- A batch of updates that reaches every selected row and leaves none selected. -/
theorem filter_modifyAll_none {p : ρ → Bool} {f : ρ → ρ} (hf : ∀ r, p (f r) = false)
    (ids : List Nat) : ∀ {rows : List ρ},
      (∀ i r, rows[i]? = some r → p r = true → i ∈ ids) → (modifyAll f ids rows).filter p = [] := by
  induction ids with
  | nil =>
      intro rows h
      rw [modifyAll, List.filter_eq_nil_iff]
      intro r hr hp
      obtain ⟨i, hi⟩ := List.getElem?_of_mem hr
      cases h i r hi hp
  | cons i rest ih =>
      intro rows h
      rw [modifyAll]
      refine ih fun j r hr hp => ?_
      obtain ⟨old, hold, ⟨_, rfl⟩ | ⟨hne, rfl⟩⟩ := get_modify hr
      · rw [hf] at hp
        cases hp
      · exact (List.mem_cons.mp (h j _ hold hp)).resolve_left fun heq => hne heq.symm

/-! ## Sums over a filtered table -/

section Total

variable {M : Type u} [AddCommMonoid M]

/-- `SELECT COALESCE(SUM(w), 0) FROM rows WHERE p`. -/
def total (p : ρ → Bool) (w : ρ → M) (rows : List ρ) : M := ((rows.filter p).map w).sum

@[simp] theorem total_nil (p : ρ → Bool) (w : ρ → M) : total p w [] = 0 := rfl

theorem total_cons (p : ρ → Bool) (w : ρ → M) (r : ρ) (rows : List ρ) :
    total p w (r :: rows) = (if p r then w r else 0) + total p w rows := by
  unfold total
  by_cases h : p r <;> simp [h]

theorem total_append (p : ρ → Bool) (w : ρ → M) (rows rows' : List ρ) :
    total p w (rows ++ rows') = total p w rows + total p w rows' := by
  simp [total, List.filter_append, List.map_append, List.sum_append]

theorem total_push (p : ρ → Bool) (w : ρ → M) (rows : List ρ) (new : ρ) :
    total p w (rows ++ [new]) = total p w rows + (if p new then w new else 0) := by
  rw [total_append, total_cons, total_nil, add_zero]

/-- The sum over a view of a table is a sum over the table. -/
theorem total_map_filter {ρ' : Type u} (q : ρ → Bool) (g : ρ → ρ') (p : ρ' → Bool) (w : ρ' → M)
    (rows : List ρ) :
    total p w ((rows.filter q).map g)
      = total (fun r => q r && p (g r)) (fun r => w (g r)) rows := by
  induction rows with
  | nil => rfl
  | cons r rows ih =>
      by_cases hq : q r = true
      · rw [List.filter_cons_of_pos hq, List.map_cons, total_cons, total_cons, ih, hq,
          Bool.true_and]
      · rw [List.filter_cons_of_neg hq, total_cons, ih]
        simp [hq]

/-- An update that takes a counted row out of the filter takes its weight out of the sum. -/
theorem total_modify_leave {p : ρ → Bool} {w : ρ → M} {f : ρ → ρ} :
    ∀ {rows : List ρ} {i : Nat} {r : ρ}, rows[i]? = some r → p r = true → p (f r) = false →
      total p w (rows.modify i f) + w r = total p w rows
  | [], i, r, h, _, _ => by simp at h
  | x :: rows, 0, r, h, hp, hf => by
      have hx : x = r := by simpa using h
      subst hx
      show total p w (f x :: rows) + w x = _
      rw [total_cons, total_cons, hp, hf]
      simp [add_comm]
  | x :: rows, i + 1, r, h, hp, hf => by
      have ih : total p w (rows.modify i f) + w r = total p w rows :=
        total_modify_leave (by simpa using h) hp hf
      show total p w (x :: rows.modify i f) + w r = _
      rw [total_cons, total_cons, add_assoc, ih]

/-- An update of a row that is not counted before or after. -/
theorem total_modify_out {p : ρ → Bool} {w : ρ → M} {f : ρ → ρ} :
    ∀ {rows : List ρ} {i : Nat}, (∀ r, rows[i]? = some r → p r = false ∧ p (f r) = false) →
      total p w (rows.modify i f) = total p w rows
  | [], i, _ => by simp
  | x :: rows, 0, h => by
      obtain ⟨h1, h2⟩ := h x (by simp)
      show total p w (f x :: rows) = _
      rw [total_cons, total_cons, h1, h2]
      simp
  | x :: rows, i + 1, h => by
      have ih : total p w (rows.modify i f) = total p w rows :=
        total_modify_out fun r hr => h r (by simpa using hr)
      show total p w (x :: rows.modify i f) = _
      rw [total_cons, total_cons, ih]

end Total

section Order

variable {M : Type u} [AddCommMonoid M] [PartialOrder M] [IsOrderedAddMonoid M]
  [CanonicallyOrderedAdd M]

/-- A narrower filter gives a smaller sum. -/
theorem total_mono {p q : ρ → Bool} (w : ρ → M) (h : ∀ r, p r = true → q r = true) :
    ∀ rows : List ρ, total p w rows ≤ total q w rows
  | [] => le_refl _
  | x :: rows => by
      rw [total_cons, total_cons]
      refine add_le_add ?_ (total_mono w h rows)
      by_cases hp : p x = true
      · rw [if_pos hp, if_pos (h x hp)]
      · rw [if_neg hp]; exact zero_le

end Order

end Lib.Table
