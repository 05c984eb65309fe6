import HoverTips.Tree.Reading

/-! # Readings that succeed

A reading is taken apart into the readings it is made of: it has a value when
they have, and its value comes from theirs. -/

namespace HoverTips.Tree

variable {ε α β : Type}

theorem bind_eq_ok_iff {x : Except ε α} {f : α → Except ε β} {b : β} :
    (x >>= f) = .ok b ↔ ∃ a, x = .ok a ∧ f a = .ok b := by
  cases x <;> simp [bind, Except.bind]

theorem map_eq_ok_iff {x : Except ε α} {f : α → β} {b : β} :
    (f <$> x) = .ok b ↔ ∃ a, x = .ok a ∧ f a = b := by
  cases x <;> simp [Functor.map, Except.map]

theorem pure_eq_ok_iff {a b : α} : (pure a : Except ε α) = .ok b ↔ a = b := by
  simp [pure, Except.pure]

theorem mapM_eq_ok_iff {f : α → Except ε β} {xs : List α} {ys : List β} :
    xs.mapM f = .ok ys ↔ xs.map f = ys.map Except.ok := by
  induction xs generalizing ys with
  | nil => cases ys <;> simp [pure_eq_ok_iff]
  | cons x xs ih =>
    rw [List.mapM_cons, bind_eq_ok_iff, List.map_cons]
    constructor
    · rintro ⟨y, hy, h⟩
      obtain ⟨zs, hz, h⟩ := bind_eq_ok_iff.mp h
      rw [← pure_eq_ok_iff.mp h, hy, ih.mp hz, List.map_cons]
    · intro h
      cases ys with
      | nil => cases h
      | cons y ys =>
        obtain ⟨hy, hys⟩ := List.cons.inj h
        exact ⟨y, hy, bind_eq_ok_iff.mpr ⟨ys, ih.mpr hys, rfl⟩⟩

theorem mem_mapM_iff {f : α → Except ε β} {xs : List α} {ys : List β}
    (h : xs.mapM f = .ok ys) {y : β} : y ∈ ys ↔ ∃ x ∈ xs, f x = .ok y := by
  have hy : y ∈ ys ↔ Except.ok y ∈ xs.map f := by
    rw [mapM_eq_ok_iff.mp h]
    simp
  rw [hy, List.mem_map]

theorem ok_of_mapM {f : α → Except ε β} {xs : List α} {ys : List β} (h : xs.mapM f = .ok ys)
    {x : α} (hx : x ∈ xs) : ∃ y, f x = .ok y := by
  have hmem := List.mem_map_of_mem (f := f) hx
  rw [mapM_eq_ok_iff.mp h] at hmem
  obtain ⟨y, _, hy⟩ := List.mem_map.mp hmem
  exact ⟨y, hy.symm⟩

theorem mapM_singleton_eq_ok_iff {f : α → Except ε β} {x : α} {ys : List β} :
    [x].mapM f = .ok ys ↔ ∃ y, f x = .ok y ∧ [y] = ys := by
  rw [mapM_eq_ok_iff]
  cases ys with
  | nil => simp
  | cons y ys => cases ys <;> simp

theorem mapM_append_eq_ok_iff {f : α → Except ε β} {xs xs' : List α} {ys : List β} :
    (xs ++ xs').mapM f = .ok ys ↔
      ∃ zs zs', xs.mapM f = .ok zs ∧ xs'.mapM f = .ok zs' ∧ zs ++ zs' = ys := by
  simp only [List.mapM_append, bind_eq_ok_iff, pure_eq_ok_iff]
  constructor
  · rintro ⟨zs, hzs, zs', hzs', h⟩
    exact ⟨zs, zs', hzs, hzs', h⟩
  · rintro ⟨zs, zs', hzs, hzs', h⟩
    exact ⟨zs, hzs, zs', hzs', h⟩

/-- A filter that reads keeps what its readings say to keep, and needs them all. -/
theorem filterMapM_eq_ok_iff {f : α → Reading (Option β)} {xs : List α} {ys : List β} :
    xs.filterMapM f = .ok ys ↔
      (∀ x ∈ xs, ∃ o, f x = .ok o) ∧ ys = xs.filterMap fun x => (f x).toOption.join := by
  induction xs generalizing ys with
  | nil =>
    rw [List.filterMapM_nil, pure_eq_ok_iff]
    simp [eq_comm]
  | cons x xs ih =>
    rw [List.filterMapM_cons, bind_eq_ok_iff, List.forall_mem_cons]
    constructor
    · rintro ⟨o, ho, h⟩
      rw [List.filterMap_cons]
      cases o with
      | none =>
        obtain ⟨hall, rfl⟩ := ih.mp h
        exact ⟨⟨⟨none, ho⟩, hall⟩, by simp [ho, Except.toOption]⟩
      | some b =>
        obtain ⟨zs, hz, h⟩ := bind_eq_ok_iff.mp h
        obtain ⟨hall, rfl⟩ := ih.mp hz
        exact ⟨⟨⟨some b, ho⟩, hall⟩, by simp [ho, Except.toOption, ← pure_eq_ok_iff.mp h]⟩
    · rintro ⟨⟨⟨o, ho⟩, hall⟩, rfl⟩
      refine ⟨o, ho, ?_⟩
      rw [List.filterMap_cons, ho]
      cases o with
      | none => exact ih.mpr ⟨hall, rfl⟩
      | some b => exact bind_eq_ok_iff.mpr ⟨_, ih.mpr ⟨hall, rfl⟩, rfl⟩

/-- A reading that has a value. -/
def Succeeds (x : Reading α) : Prop := ∃ a, x = .ok a

theorem succeeds_ok (a : α) : Succeeds (.ok a) := ⟨a, rfl⟩

theorem succeeds_pure (a : α) : Succeeds (pure a) := ⟨a, rfl⟩

theorem Succeeds.bind {x : Reading α} {f : α → Reading β} (hx : Succeeds x)
    (hf : ∀ a, Succeeds (f a)) : Succeeds (x >>= f) := by
  obtain ⟨a, rfl⟩ := hx
  exact hf a

theorem Succeeds.map {x : Reading α} {f : α → β} (hx : Succeeds x) : Succeeds (f <$> x) := by
  obtain ⟨a, rfl⟩ := hx
  exact ⟨f a, rfl⟩

theorem succeeds_mapM {f : α → Reading β} {xs : List α} (h : ∀ x ∈ xs, Succeeds (f x)) :
    Succeeds (xs.mapM f) := by
  induction xs with
  | nil => exact succeeds_pure []
  | cons x xs ih =>
    rw [List.forall_mem_cons] at h
    rw [List.mapM_cons]
    exact h.1.bind fun y => (ih h.2).bind fun ys => succeeds_pure _

theorem succeeds_filterMapM {f : α → Reading (Option β)} {xs : List α}
    (h : ∀ x ∈ xs, Succeeds (f x)) : Succeeds (xs.filterMapM f) :=
  ⟨_, filterMapM_eq_ok_iff.mpr ⟨h, rfl⟩⟩

theorem succeeds_foldlM {f : β → α → Reading β} {xs : List α} (b : β)
    (h : ∀ b, ∀ x ∈ xs, Succeeds (f b x)) : Succeeds (xs.foldlM f b) := by
  induction xs generalizing b with
  | nil => exact succeeds_pure b
  | cons x xs ih =>
    rw [List.foldlM_cons]
    exact (h b x (by simp)).bind fun b => ih b fun b y hy => h b y (by simp [hy])

theorem succeeds_foldr {f : α → Reading β → Reading β} {xs : List α} {x : Reading β}
    (hx : Succeeds x) (h : ∀ a ∈ xs, ∀ y, Succeeds y → Succeeds (f a y)) :
    Succeeds (xs.foldr f x) := by
  induction xs with
  | nil => exact hx
  | cons a xs ih =>
    rw [List.forall_mem_cons] at h
    exact h.1 _ (ih h.2)

theorem succeeds_ite {c : Prop} [Decidable c] {x y : Reading α} (hx : Succeeds x)
    (hy : Succeeds y) : Succeeds (if c then x else y) := by
  split
  · exact hx
  · exact hy

theorem succeeds_getD {x : Option (Reading α)} {y : Reading α} (hx : ∀ z ∈ x, Succeeds z)
    (hy : Succeeds y) : Succeeds (x.getD y) := by
  cases x with
  | none => exact hy
  | some z => exact hx z rfl

/-- What a reading gives, if it gives anything, has a property. -/
def Ensures (P : α → Prop) (x : Reading α) : Prop := ∀ a, x = .ok a → P a

variable {P : α → Prop} {Q : β → Prop}

theorem ensures_ok {a : α} (h : P a) : Ensures P (.ok a) := by
  rintro _ ⟨⟩
  exact h

instance [DecidablePred P] : (x : Reading α) → Decidable (Ensures P x)
  | .ok a => decidable_of_iff (P a) ⟨ensures_ok, fun h => h a rfl⟩
  | .error _ => .isTrue nofun

theorem ensures_pure {a : α} (h : P a) : Ensures P (pure a) := ensures_ok h

theorem ensures_nil : Ensures (∀ a ∈ ·, P a) (.ok []) := ensures_ok (List.forall_mem_nil P)

theorem ensures_none : Ensures (∀ a ∈ ·, P a) (.ok none) := ensures_ok (by simp)

theorem ensures_some {a : α} (h : P a) : Ensures (∀ b ∈ ·, P b) (.ok (some a)) :=
  ensures_ok (by simpa using h)

theorem Ensures.bind {x : Reading α} {f : α → Reading β} (hx : Ensures P x)
    (hf : ∀ a, P a → Ensures Q (f a)) : Ensures Q (x >>= f) := by
  intro b hb
  obtain ⟨a, ha, hb⟩ := bind_eq_ok_iff.mp hb
  exact hf a (hx a ha) b hb

theorem Ensures.map {x : Reading α} {f : α → β} (hx : Ensures P x) (hf : ∀ a, P a → Q (f a)) :
    Ensures Q (f <$> x) := by
  intro b hb
  obtain ⟨a, ha, rfl⟩ := map_eq_ok_iff.mp hb
  exact hf a (hx a ha)

theorem Ensures.map_some {x : Reading α} {f : α → β} (hx : Ensures P x)
    (hf : ∀ a, P a → Q (f a)) : Ensures (∀ b ∈ ·, Q b) ((fun a => some (f a)) <$> x) :=
  hx.map fun a ha => by simpa using hf a ha

theorem ensures_bind {x : Reading α} {f : α → Reading β} (hf : ∀ a, Ensures Q (f a)) :
    Ensures Q (x >>= f) := by
  intro b hb
  obtain ⟨a, _, hb⟩ := bind_eq_ok_iff.mp hb
  exact hf a b hb

theorem ensures_ite {c : Prop} [Decidable c] {x y : Reading α} (hx : c → Ensures P x)
    (hy : ¬c → Ensures P y) : Ensures P (if c then x else y) := by
  split
  · exact hx ‹_›
  · exact hy ‹_›

theorem ensures_mapM {f : α → Reading β} {xs : List α} (h : ∀ x ∈ xs, Ensures Q (f x)) :
    Ensures (∀ y ∈ ·, Q y) (xs.mapM f) := by
  intro ys hys y hy
  obtain ⟨x, hx, hxy⟩ := (mem_mapM_iff hys).mp hy
  exact h x hx y hxy

theorem ensures_foldlM {f : β → α → Reading β} {xs : List α} {b : β} (hb : Q b)
    (h : ∀ b, Q b → ∀ x ∈ xs, Ensures Q (f b x)) : Ensures Q (xs.foldlM f b) := by
  induction xs generalizing b with
  | nil => exact ensures_pure hb
  | cons x xs ih =>
    rw [List.foldlM_cons]
    exact (h b hb x (by simp)).bind fun b hb => ih hb fun b hb y hy => h b hb y (by simp [hy])

theorem ensures_foldr {f : α → Reading β → Reading β} {xs : List α} {x : Reading β}
    (hx : Ensures Q x) (h : ∀ a ∈ xs, ∀ y, Ensures Q y → Ensures Q (f a y)) :
    Ensures Q (xs.foldr f x) := by
  induction xs with
  | nil => exact hx
  | cons a xs ih =>
    rw [List.forall_mem_cons] at h
    exact h.1 _ (ih h.2)

end HoverTips.Tree
