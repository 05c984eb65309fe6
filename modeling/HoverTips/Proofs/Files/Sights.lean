import HoverTips.Files.Store

/-! # Entries from the outside

Seen from the outside an entry has files and directories at the ends of names.
What is put below a directory, and not in place of one, is all that changes. A
walk along some steps starts each of them from a directory, so it does not mind
if there are more directories than before. -/

namespace HoverTips.Files

/-! ## Sights -/

/-- What shows of an entry without looking into it. -/
inductive Sight where
  | file (bytes : ByteArray)
  | directory

namespace Entry

def sight : Entry → Sight
  | file bytes => .file bytes
  | directory _ => .directory

/-- What stands at the end of some names. -/
def sightAt? (e : Entry) (names : List String) : Option Sight := (e.get? names).map sight

theorem sight_eq_directory_iff {e : Entry} :
    e.sight = .directory ↔ ∃ entries, e = .directory entries := by
  cases e <;> simp [sight]

theorem sight_eq_file_iff {e : Entry} {bytes : ByteArray} :
    e.sight = .file bytes ↔ e = .file bytes := by
  cases e <;> simp [sight]

theorem sightAt?_eq_directory_iff {e : Entry} {names : List String} :
    e.sightAt? names = some .directory ↔ ∃ entries, e.get? names = some (.directory entries) := by
  simp only [sightAt?, Option.map_eq_some_iff, sight_eq_directory_iff]
  constructor
  · rintro ⟨_, he, entries, rfl⟩
    exact ⟨entries, he⟩
  · rintro ⟨entries, he⟩
    exact ⟨_, he, entries, rfl⟩

theorem sightAt?_eq_file_iff {e : Entry} {names : List String} {bytes : ByteArray} :
    e.sightAt? names = some (.file bytes) ↔ e.get? names = some (.file bytes) := by
  simp [sightAt?, Option.map_eq_some_iff, sight_eq_file_iff]

theorem get?_append (e : Entry) (names later : List String) :
    e.get? (names ++ later) = (e.get? names).bind (get? later) := by
  induction names generalizing e with
  | nil => rfl
  | cons name names ih =>
    cases e with
    | file bytes => rfl
    | directory entries =>
      rw [List.cons_append, get?, get?]
      split
      · exact ih _
      · rfl

theorem sightAt?_append (e : Entry) (names later : List String) :
    e.sightAt? (names ++ later) = (e.get? names).bind (·.sightAt? later) := by
  rw [sightAt?, get?_append, Option.map_bind]
  rfl

/-- Below a directory alone there is something. -/
theorem sightAt?_eq_none_below {e : Entry} {names : List String} {name : String}
    {later : List String} (h : e.sightAt? names ≠ some .directory) :
    e.sightAt? (names ++ name :: later) = none := by
  rw [sightAt?_append, Option.bind_eq_none_iff]
  intro found hfound
  cases found with
  | file bytes => rfl
  | directory entries => exact absurd (sightAt?_eq_directory_iff.mpr ⟨entries, hfound⟩) h

/-- On the way to something there are directories. -/
theorem sightAt?_on_the_way {e : Entry} {names later : List String} {name : String}
    (h : e.sightAt? (names ++ name :: later) ≠ none) : e.sightAt? names = some .directory := by
  cases hs : e.sightAt? names with
  | none => exact absurd (sightAt?_eq_none_below (by simp [hs])) h
  | some found =>
    cases found with
    | directory => rfl
    | file bytes => exact absurd (sightAt?_eq_none_below (by simp [hs])) h

/-! ## Putting an entry -/

theorem lookup_alterIn (name other : String) (change : Option Entry → Entry)
    (entries : List (String × Entry)) :
    (alterIn name change entries).lookup other =
      if other = name then some (change (entries.lookup name)) else entries.lookup other := by
  induction entries with
  | nil =>
    by_cases h : other = name
    · simp [alterIn, h]
    · simp [alterIn, h, List.lookup_cons, beq_false_of_ne h]
  | cons entry entries ih =>
    obtain ⟨n, e⟩ := entry
    rw [alterIn]
    split
    · rename_i hn
      obtain rfl := beq_iff_eq.mp hn
      by_cases h : other = n
      · simp [h]
      · simp [h, List.lookup_cons, beq_false_of_ne h]
    · rename_i hn
      have hne : (name == n) = false := beq_false_of_ne fun he => hn (beq_iff_eq.mpr he.symm)
      rw [List.lookup_cons, List.lookup_cons, ih, List.lookup_cons, hne]
      by_cases h : other = name
      · simp [h, hne]
      · simp [h]

/-- The entries that a directory has, and a file has none. -/
def members : Entry → List (String × Entry)
  | directory entries => entries
  | file _ => []

theorem get?_cons (e : Entry) (name : String) (names : List String) :
    e.get? (name :: names) = (e.members.lookup name).bind (get? names) := by
  cases e with
  | file bytes => rfl
  | directory entries =>
    rw [get?, members]
    cases entries.lookup name <;> rfl

theorem put_cons (new old : Entry) (name : String) (names : List String) :
    put new (name :: names) old =
      .directory (alterIn name (fun e => put new names (e.getD (.directory []))) old.members) := by
  cases old <;> rfl

/-- At and below the names there is what was put, on the way there are directories,
and elsewhere nothing has changed. -/
theorem sightAt?_put (new : Entry) (names : List String) (old : Entry) (k : List String) :
    (put new names old).sightAt? k =
      if names <+: k then new.sightAt? (k.drop names.length)
      else if k <+: names then some .directory
      else old.sightAt? k := by
  induction names generalizing old k with
  | nil => simp [put]
  | cons name names ih =>
    rw [put_cons]
    cases k with
    | nil => simp [sightAt?, get?, sight]
    | cons other k =>
      have hget : (directory (alterIn name (fun e => put new names (e.getD (.directory [])))
          old.members)).sightAt? (other :: k) =
            if other = name then
              (put new names ((old.members.lookup name).getD (.directory []))).sightAt? k
            else old.sightAt? (other :: k) := by
        rw [sightAt?, get?_cons, members, lookup_alterIn]
        split
        · rfl
        · rw [sightAt?, get?_cons]
      rw [hget]
      by_cases hother : other = name
      · rw [if_pos hother, ih, hother]
        simp only [List.cons_prefix_cons, true_and, List.length_cons, List.drop_succ_cons]
        split
        · rfl
        split
        · rfl
        · -- the names lead elsewhere, so there is at least one more of them
          rename_i hk
          rw [sightAt?, sightAt?, get?_cons]
          cases old.members.lookup name with
          | some e => rfl
          | none =>
            cases k with
            | nil => exact absurd List.nil_prefix hk
            | cons n k => rfl
      · rw [if_neg hother]
        have hname : ¬name = other := fun he => hother he.symm
        simp [List.cons_prefix_cons, hother, hname]

/-- A file or an empty directory that is put below a directory, and not in place of
one, changes nothing else. -/
theorem sightAt?_put_below (new : Entry) {old : Entry} {parent : List String} {name : String}
    (hparent : old.sightAt? parent = some .directory)
    (hold : old.sightAt? (parent ++ [name]) ≠ some .directory)
    (hnew : ∀ n later, new.sightAt? (n :: later) = none) (k : List String) :
    (put new (parent ++ [name]) old).sightAt? k =
      if k = parent ++ [name] then some new.sight else old.sightAt? k := by
  rw [sightAt?_put]
  split
  · rename_i hbelow
    obtain ⟨later, rfl⟩ := hbelow
    rw [List.drop_left]
    cases later with
    | nil => simp [sightAt?, get?]
    | cons n later =>
      rw [hnew, if_neg (by simp), sightAt?_eq_none_below hold]
  · rename_i hbelow
    have hne : k ≠ parent ++ [name] := by
      intro he
      exact hbelow (he ▸ List.prefix_rfl)
    rw [if_neg hne]
    split
    · rename_i habove
      rcases List.prefix_concat_iff.mp habove with he | hk
      · exact absurd he hne
      · obtain ⟨later, rfl⟩ := hk
        cases later with
        | nil => rw [List.append_nil] at hparent; exact hparent.symm
        | cons n later => exact (sightAt?_on_the_way (by rw [hparent]; simp)).symm
    · rfl

end Entry

/-! ## Following steps -/

/-- Where one step leads, by names alone. -/
def stepFrom (names : List String) (step : String) : List String :=
  if step == ".." then names.dropLast else names ++ [step]

/-- Every step starts from a directory. -/
def Walkable (root : Entry) : List String → List String → Prop
  | _, [] => True
  | names, step :: later =>
    root.sightAt? names = some .directory ∧ Walkable root (stepFrom names step) later

theorem follow_eq_ok_iff {root : Entry} {names steps : List String} {place : Place} :
    follow root names steps = .ok place ↔ Walkable root names steps ∧
      place = ⟨steps.foldl stepFrom names, root.get? (steps.foldl stepFrom names)⟩ := by
  induction steps generalizing names with
  | nil => simp [follow, Walkable, eq_comm]
  | cons step later ih =>
    rw [follow, Walkable, Entry.sightAt?_eq_directory_iff]
    cases h : root.get? names with
    | none => simp
    | some e =>
      cases e with
      | file bytes => simp
      | directory entries =>
        simp only [Option.some.injEq, Entry.directory.injEq, exists_eq', true_and]
        exact ih

theorem walkable_append {root : Entry} {names steps later : List String} :
    Walkable root names (steps ++ later) ↔
      Walkable root names steps ∧ Walkable root (steps.foldl stepFrom names) later := by
  induction steps generalizing names with
  | nil => simp [Walkable]
  | cons step steps ih => simp [Walkable, ih, and_assoc]

/-- More directories do not make steps fail. -/
theorem Walkable.mono {root more : Entry} {names steps : List String}
    (h : Walkable root names steps)
    (hmore : ∀ k, root.sightAt? k = some .directory → more.sightAt? k = some .directory) :
    Walkable more names steps := by
  induction steps generalizing names with
  | nil => trivial
  | cons step later ih => exact ⟨hmore _ h.1, ih h.2⟩

theorem foldl_stepFrom_plain {steps : List String} (h : ".." ∉ steps) (names : List String) :
    steps.foldl stepFrom names = names ++ steps := by
  induction steps generalizing names with
  | nil => simp
  | cons step later ih =>
    rw [List.mem_cons, not_or] at h
    have hstep : (step == "..") = false := by simpa using Ne.symm h.1
    rw [List.foldl_cons, ih h.2, stepFrom, hstep]
    simp

/-- The names of what is there can be followed as steps. -/
theorem walkable_of_sightAt? {root : Entry} {names steps : List String} (h : ".." ∉ steps)
    (hthere : root.sightAt? (names ++ steps) ≠ none) : Walkable root names steps := by
  induction steps generalizing names with
  | nil => trivial
  | cons step later ih =>
    rw [List.mem_cons, not_or] at h
    refine ⟨Entry.sightAt?_on_the_way hthere, ih h.2 ?_⟩
    have hstep : (step == "..") = false := by simpa using Ne.symm h.1
    rw [stepFrom, hstep]
    simpa using hthere

/-- Where the last step of a walk leads, if there is nothing, or a file, it leads down
from a directory. -/
theorem Walkable.parent {root : Entry} {names steps : List String} {last : String}
    (h : Walkable root names (steps ++ [last]))
    (hend : root.sightAt? ((steps ++ [last]).foldl stepFrom names) ≠ some .directory) :
    root.sightAt? (steps.foldl stepFrom names) = some .directory ∧
      (steps ++ [last]).foldl stepFrom names = steps.foldl stepFrom names ++ [last] := by
  obtain ⟨_, hdirectory, _⟩ := walkable_append.mp h
  refine ⟨hdirectory, ?_⟩
  rw [List.foldl_append, List.foldl_cons, List.foldl_nil, stepFrom] at hend ⊢
  split at hend
  · -- a step up leads to a directory
    exfalso
    apply hend
    cases hup : (steps.foldl stepFrom names).reverse with
    | nil =>
      rw [List.reverse_eq_nil_iff] at hup
      rw [hup] at hdirectory ⊢
      exact hdirectory
    | cons name before =>
      have hnames : steps.foldl stepFrom names = before.reverse ++ [name] := by
        rw [← List.reverse_inj, hup]
        simp
      rw [hnames] at hdirectory ⊢
      rw [List.dropLast_concat]
      exact Entry.sightAt?_on_the_way (by rw [hdirectory]; simp)
  · rename_i hstep
    exact if_neg hstep

end HoverTips.Files
