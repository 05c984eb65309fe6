import HoverTips.Files.Disk
import HoverTips.Proofs.Files.Sights
import HoverTips.Proofs.Tree.Results

/-! # What a change of a store leaves alone

Directories are only made where there was nothing, and a file is only written
below a directory and not in place of one. So a change of a store takes no
directory away, and changes no file but the one that was written; any other file
is read as before. -/

namespace HoverTips.Files

namespace Store

/-- Where a path leads, by names alone. -/
def placeOf (s : Store) (path : String) : List String := (steps path).foldl stepFrom (s.base path)

/-- A store after changes of the files at some names. No directory is gone, and the
other files are as they were. -/
structure Leaves (s t : Store) (changed : List String → Prop) : Prop where
  workingDirectory : t.workingDirectory = s.workingDirectory
  directories : ∀ k, s.root.sightAt? k = some .directory → t.root.sightAt? k = some .directory
  files : ∀ k bytes, ¬changed k →
    (t.root.sightAt? k = some (.file bytes) ↔ s.root.sightAt? k = some (.file bytes))

variable {s t u : Store} {changed more : List String → Prop} {start : List String} {path : String}

theorem Leaves.refl (s : Store) (changed : List String → Prop) : s.Leaves s changed :=
  ⟨rfl, fun _ h => h, fun _ _ _ => Iff.rfl⟩

theorem Leaves.trans (h : s.Leaves t changed) (h' : t.Leaves u more) :
    s.Leaves u fun k => changed k ∨ more k where
  workingDirectory := h'.workingDirectory.trans h.workingDirectory
  directories k hk := h'.directories k (h.directories k hk)
  files k bytes hk := by
    rw [not_or] at hk
    exact (h'.files k bytes hk.2).trans (h.files k bytes hk.1)

theorem Leaves.file_iff (h : s.Leaves t changed) {names : List String} (bytes : ByteArray)
    (hnames : ¬changed names) :
    t.root.get? names = some (.file bytes) ↔ s.root.get? names = some (.file bytes) := by
  rw [← Entry.sightAt?_eq_file_iff, ← Entry.sightAt?_eq_file_iff]
  exact h.files names bytes hnames

theorem Leaves.imp (h : s.Leaves t changed) (himp : ∀ k, changed k → more k) : s.Leaves t more :=
  ⟨h.workingDirectory, h.directories, fun k bytes hk => h.files k bytes fun hc => hk (himp k hc)⟩

theorem Leaves.base (h : s.Leaves t changed) (path : String) : t.base path = s.base path := by
  rw [Store.base, Store.base, h.workingDirectory]

theorem Leaves.placeOf (h : s.Leaves t changed) (path : String) :
    t.placeOf path = s.placeOf path := by
  rw [Store.placeOf, Store.placeOf, h.base]

/-- A path that could be followed still can. -/
theorem Leaves.walkable (h : s.Leaves t changed)
    (hwalk : Walkable s.root (s.base path) (steps path)) :
    Walkable t.root (t.base path) (steps path) := by
  rw [h.base]
  exact hwalk.mono h.directories

theorem makeDirectory_leaves {names : List String} {last : String}
    (h : s.makeDirectory start (names ++ [last]) = .ok t) : s.Leaves t fun _ => False := by
  unfold makeDirectory at h
  obtain ⟨place, hplace, h⟩ := Tree.bind_eq_ok_iff.mp h
  obtain ⟨hwalk, rfl⟩ := follow_eq_ok_iff.mp hplace
  dsimp only at h
  split at h
  · cases h
  · rename_i hnone
    cases h
    have hend : s.root.sightAt? ((names ++ [last]).foldl stepFrom start) = none := by
      rw [Entry.sightAt?, hnone]
      rfl
    obtain ⟨hparent, hnames⟩ := hwalk.parent (by rw [hend]; simp)
    rw [hnames] at hend
    have hsight := Entry.sightAt?_put_below (.directory []) hparent (by rw [hend]; simp)
      fun n later => rfl
    refine ⟨rfl, fun k hk => ?_, fun k bytes _ => ?_⟩
    · rw [putAt, hnames, hsight]
      split
      · rfl
      · exact hk
    · rw [putAt, hnames, hsight]
      split
      · rename_i he
        rw [he, hend]
        simp [Entry.sight]
      · rfl

theorem makeDirectories_leaves {names : List String} (h : s.makeDirectories start names = .ok t) :
    s.Leaves t fun _ => False := by
  induction names generalizing s t with
  | nil =>
    cases h
    exact .refl s _
  | cons last before ih =>
    rw [makeDirectories, List.reverse_cons] at h
    split at h
    · rename_i made hmade
      cases h
      exact makeDirectory_leaves hmade
    · obtain ⟨between, hbetween, h⟩ := Tree.bind_eq_ok_iff.mp h
      have hfirst := ih hbetween
      split at h
      · rename_i made hmade
        cases h
        exact (hfirst.trans (makeDirectory_leaves hmade)).imp fun _ hk => hk.elim id id
      · split at h
        · cases h
          exact hfirst
        · cases h
    · split at h
      · cases h
        exact .refl s _
      · cases h

/-- A path that leads somewhere is not empty, and can be followed; if it ends like a
directory it leads to no file. -/
theorem locate_eq_ok_iff {place : Place} :
    s.locate path = .ok place ↔ path ≠ "" ∧ Walkable s.root (s.base path) (steps path) ∧
      (endsInDirectory path = true →
        ∀ bytes, s.root.sightAt? (s.placeOf path) ≠ some (.file bytes)) ∧
      place = ⟨s.placeOf path, s.root.get? (s.placeOf path)⟩ := by
  unfold locate
  dsimp only
  by_cases hpath : path = ""
  · simp [hpath, throw, throwThe, MonadExceptOf.throw, bind, Except.bind]
  rw [if_neg (by simpa using hpath), Tree.bind_eq_ok_iff]
  simp only [follow_eq_ok_iff, ne_eq, hpath, not_false_eq_true, true_and,
    Entry.sightAt?_eq_file_iff]
  constructor
  · rintro ⟨found, ⟨hwalk, rfl⟩, h⟩
    refine ⟨hwalk, ?_⟩
    dsimp only at h
    split at h
    · rename_i bytes hfile
      split at h
      · cases h
      · rename_i hend
        exact ⟨fun he => absurd he hend, (Tree.pure_eq_ok_iff.mp h).symm⟩
    · rename_i hfile
      exact ⟨fun _ => hfile, (Tree.pure_eq_ok_iff.mp h).symm⟩
  · rintro ⟨hwalk, hend, rfl⟩
    refine ⟨_, ⟨hwalk, rfl⟩, ?_⟩
    dsimp only
    split
    · rename_i bytes hfile
      split
      · rename_i he
        exact absurd hfile (hend he bytes)
      · rfl
    · rfl

/-! ## Reading -/

/-- The text of some bytes. -/
def textOf (bytes : ByteArray) : Except Fault String :=
  match String.fromUTF8? bytes with
  | some text => .ok text
  | none => .error .notText

theorem textOf_toUTF8 (text : String) : textOf text.toUTF8 = .ok text := by
  simp only [textOf, String.fromUTF8?, String.toUTF8_eq_toByteArray, dif_pos text.isValidUTF8]
  rfl

/-- A path leads to a file with some bytes. -/
structure Holds (s : Store) (path : String) (bytes : ByteArray) : Prop where
  nonempty : path ≠ ""
  ending : endsInDirectory path = false
  walk : Walkable s.root (s.base path) (steps path)
  file : s.root.sightAt? (s.placeOf path) = some (.file bytes)

theorem Holds.entryAt {bytes : ByteArray} (h : s.Holds path bytes) :
    s.entryAt path = .ok (.file bytes) := by
  have hlocate : s.locate path = .ok ⟨s.placeOf path, s.root.get? (s.placeOf path)⟩ :=
    locate_eq_ok_iff.mpr ⟨h.nonempty, h.walk, by simp [h.ending], rfl⟩
  rw [Store.entryAt, hlocate, Entry.sightAt?_eq_file_iff.mp h.file]
  rfl

theorem Holds.readText {bytes : ByteArray} (h : s.Holds path bytes) :
    s.readText path = textOf bytes := by
  unfold Store.readText textOf
  rw [h.entryAt]
  change (match String.fromUTF8? bytes with
    | some text => (pure text : Except Fault String)
    | none => throw Fault.notText) = _
  split <;> rfl

theorem Holds.read? {bytes : ByteArray} (h : s.Holds path bytes) :
    s.read? path = some (textOf bytes) := by
  have hthere : s.hasEntry path = true := by
    rw [hasEntry, h.entryAt]
    rfl
  rw [Store.read?, if_pos hthere, h.readText]

/-- A file that is not changed is read as before. -/
theorem Holds.of_leaves {bytes : ByteArray} (h : s.Holds path bytes) (hleaves : s.Leaves t changed)
    (hpath : ¬changed (s.placeOf path)) : t.Holds path bytes where
  nonempty := h.nonempty
  ending := h.ending
  walk := hleaves.walkable h.walk
  file := by
    rw [hleaves.placeOf, hleaves.files _ _ hpath]
    exact h.file

/-! ## Writing -/

/-- A file that was written stands where its path leads, and nothing else has
changed. -/
theorem writeText_spec {names : List String} {last text : String}
    (hsteps : steps path = names ++ [last]) (h : s.writeText path text = .ok t) :
    s.Leaves t (· = s.placeOf path) ∧
      t.root.sightAt? (s.placeOf path) = some (.file text.toUTF8) ∧
      Walkable s.root (s.base path) (steps path) := by
  obtain ⟨place, hplace, h⟩ := Tree.bind_eq_ok_iff.mp h
  obtain ⟨_, hwalk, _, rfl⟩ := locate_eq_ok_iff.mp hplace
  obtain ⟨hend, rfl⟩ : s.root.sightAt? (s.placeOf path) ≠ some .directory ∧
      s.putAt (s.placeOf path) (.file text.toUTF8) = t := by
    dsimp only at h
    split at h
    · cases h
    · rename_i bytes hfile
      rw [Entry.sightAt?, hfile]
      exact ⟨by simp [Entry.sight], Tree.pure_eq_ok_iff.mp h⟩
    · rename_i hnone
      rw [Entry.sightAt?, hnone]
      split at h
      · cases h
      · exact ⟨by simp, Tree.pure_eq_ok_iff.mp h⟩
  rw [hsteps] at hwalk
  rw [placeOf, hsteps] at hend ⊢
  obtain ⟨hparent, hnames⟩ := hwalk.parent hend
  rw [hnames] at hend ⊢
  have hsight := Entry.sightAt?_put_below (.file text.toUTF8) hparent hend fun n later => rfl
  refine ⟨⟨rfl, fun k hk => ?_, fun k bytes hk => ?_⟩, ?_, hwalk⟩
  · rw [putAt, hsight]
    split
    · rename_i he
      exact absurd (he ▸ hk) hend
    · exact hk
  · rw [putAt, hsight, if_neg hk]
  · rw [putAt, hsight, if_pos rfl]
    rfl

theorem withParent_leaves (h : s.withParent path = .ok t) : s.Leaves t fun _ => False :=
  makeDirectories_leaves h

/-- The store with a file and the directories on the way to it. -/
def withFile (s : Store) (path text : String) : Except Fault Store := do
  (← s.withParent path).writeText path text

theorem withFile_spec {names : List String} {last text : String} (hpath : path ≠ "")
    (hend : endsInDirectory path = false) (hsteps : steps path = names ++ [last])
    (h : s.withFile path text = .ok t) :
    s.Leaves t (· = s.placeOf path) ∧ t.Holds path text.toUTF8 := by
  obtain ⟨ready, hready, hwritten⟩ := Tree.bind_eq_ok_iff.mp h
  have hparent := withParent_leaves hready
  obtain ⟨hleaves, hfile, hwalk⟩ := writeText_spec hsteps hwritten
  rw [hparent.placeOf] at hleaves hfile
  have hboth : s.Leaves t (· = s.placeOf path) :=
    (hparent.trans hleaves).imp fun k hk => hk.resolve_left id
  refine ⟨hboth, hpath, hend, hleaves.walkable hwalk, ?_⟩
  rw [hboth.placeOf]
  exact hfile

/-- Whether or not a file could be written, nothing else has changed. -/
theorem writeFile_leaves {names : List String} {last : String}
    (hsteps : steps path = names ++ [last]) (text : String) :
    s.Leaves (s.writeFile path text).2 (· = s.placeOf path) := by
  unfold writeFile
  split
  · exact .refl s _
  · rename_i ready hready
    have hparent := withParent_leaves hready
    split
    · rename_i written hwritten
      obtain ⟨hleaves, _, _⟩ := writeText_spec hsteps hwritten
      rw [hparent.placeOf] at hleaves
      exact (hparent.trans hleaves).imp fun k hk => hk.resolve_left id
    · exact hparent.imp fun k hk => hk.elim

end Store

end HoverTips.Files
