/-! # What computations return

A computation in some monad returns values with a property when it is a
computation of such values whose proofs are forgotten. This says nothing about
its effects, so it can be shown without knowing the monad. -/

namespace HoverTips

variable {m : Type → Type} [Monad m] {α β : Type}

/-- Every value that a computation returns has a property. -/
def Returns (x : m α) (p : α → Prop) : Prop := ∃ y : m {a // p a}, Subtype.val <$> y = x

variable [LawfulMonad m] {p : α → Prop} {q : β → Prop}

theorem Returns.pure {a : α} (h : p a) : Returns (m := m) (pure a) p :=
  ⟨Pure.pure ⟨a, h⟩, by rw [map_pure]⟩

theorem Returns.any (x : m α) : Returns x fun _ => True :=
  ⟨(⟨·, trivial⟩) <$> x, by simp⟩

theorem Returns.imp {x : m α} {r : α → Prop} (h : Returns x p) (himp : ∀ a, p a → r a) :
    Returns x r := by
  obtain ⟨y, rfl⟩ := h
  exact ⟨(fun a => ⟨a.1, himp a.1 a.2⟩) <$> y, by rw [Functor.map_map]⟩

theorem Returns.bind {x : m α} {f : α → m β} (hx : Returns x p)
    (hf : ∀ a, p a → Returns (f a) q) : Returns (x >>= f) q := by
  obtain ⟨y, rfl⟩ := hx
  refine ⟨y >>= fun a => (hf a.1 a.2).choose, ?_⟩
  rw [map_bind, bind_map_left]
  exact bind_congr fun a => (hf a.1 a.2).choose_spec

/-- After a computation only the values that it returns matter. -/
theorem Returns.bind_congr {x : m α} {f g : α → m β} (hx : Returns x p)
    (hfg : ∀ a, p a → f a = g a) : x >>= f = x >>= g := by
  obtain ⟨y, rfl⟩ := hx
  rw [bind_map_left, bind_map_left]
  congr 1
  funext a
  exact hfg a.1 a.2

theorem Returns.map {x : m α} {f : α → β} (hx : Returns x fun a => q (f a)) :
    Returns (f <$> x) q := by
  rw [map_eq_pure_bind]
  exact hx.bind fun a ha => .pure ha

/-- In a world that is handed on, what a computation returns it returns from
every state of the world. -/
theorem Returns.from {σ : Type} {x : StateM σ α} (h : Returns x p) (w : σ) : p (x w).1 := by
  obtain ⟨y, rfl⟩ := h
  exact (y w).1.2

theorem returns_state_iff {σ : Type} {x : StateM σ α} : Returns x p ↔ ∀ w, p (x w).1 :=
  ⟨Returns.from, fun h => ⟨fun w => (⟨(x w).1, h w⟩, (x w).2), rfl⟩⟩

/-- In the monad without effects, a computation is the value it returns. -/
theorem returns_id_iff {x : Id α} : Returns x p ↔ p x := by
  constructor
  · rintro ⟨y, rfl⟩
    exact y.2
  · exact fun h => ⟨⟨x, h⟩, rfl⟩

end HoverTips
