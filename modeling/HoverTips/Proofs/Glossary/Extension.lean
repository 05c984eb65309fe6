import HoverTips.Token

/-! # Glossaries that know more

The first definition of a name wins, so whatever is added to a glossary, the names
it had keep their definitions. Filling in tokens from the larger registry comes to
the same whether or not they were filled in from the smaller one before. -/

namespace HoverTips

namespace Glossary

/-- A glossary has all definitions of another one, as they are there. -/
def Extends (more g : Glossary) : Prop :=
  ∀ name d, g.lookup name = some d → more.lookup name = some d

theorem Extends.refl (g : Glossary) : g.Extends g := fun _ _ h => h

theorem Extends.trans {f g h : Glossary} (hgh : h.Extends g) (hfg : g.Extends f) : h.Extends f :=
  fun name d hd => hgh name d (hfg name d hd)

theorem insert_extends (g : Glossary) (name : String) (d : Definition) :
    (g.insert name d).Extends g := by
  intro other e h
  unfold insert
  split
  · have hfront : g.entries.lookup other = some e := h
    rw [lookup, List.lookup_append, hfront]
    rfl
  · exact h

theorem insertAll_extends (entries : List (String × Definition)) (g : Glossary) :
    (g.insertAll entries).Extends g := by
  unfold insertAll
  induction entries generalizing g with
  | nil => exact .refl g
  | cons entry entries ih => exact (ih _).trans (g.insert_extends entry.1 entry.2)

/-- Adding layer upon layer changes no definition. -/
theorem layers_extend (layers : List (List (String × Definition))) (g : Glossary) :
    (layers.foldl insertAll g).Extends g := by
  induction layers generalizing g with
  | nil => exact .refl g
  | cons entries layers ih => exact (ih _).trans (g.insertAll_extends entries)

theorem Extends.lookup_isSome {more g : Glossary} (h : more.Extends g) {name : String}
    (hname : (g.lookup name).isSome = true) : (more.lookup name).isSome = true := by
  obtain ⟨d, hd⟩ := Option.isSome_iff_exists.mp hname
  rw [h name d hd]
  rfl

/-- What the smaller registry knows, the larger one says too. -/
theorem Extends.hover_or {more r : Registry} (h : more.Extends r.toGlossary) (name : String) :
    (r.hover name).or (more.hover name) = more.hover name := by
  unfold Registry.hover
  cases hname : r.lookup name with
  | none => rfl
  | some d =>
    rw [h name d hname]
    rfl

end Glossary

namespace Token

theorem hydrate_eq (r : Registry) (t : Token) :
    t.hydrate r = { t with info := t.info.or (r.hover t.text) } := by
  obtain ⟨span, kind, text, info, message⟩ := t
  cases info <;> rfl

theorem hydrate_hydrate {more r : Registry} (h : more.Extends r.toGlossary) (t : Token) :
    (t.hydrate r).hydrate more = t.hydrate more := by
  simp only [hydrate_eq, Option.or_assoc, h.hover_or]

theorem hydrate_of_info {r : Registry} {t : Token} (h : t.info.isSome = true) :
    t.hydrate r = t := by
  obtain ⟨info, hinfo⟩ := Option.isSome_iff_exists.mp h
  rw [hydrate, hinfo]

end Token

end HoverTips
