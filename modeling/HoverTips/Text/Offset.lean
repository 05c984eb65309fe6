/-!
# Byte offsets into text

Every position in a block counts UTF-8 bytes. `cut` reads the characters between two offsets, or
says why they do not lie between characters. A cut that succeeds is exactly as long as the offsets
are apart (`byteLength_cut`), and it is what remains between a text before and a text after it
(`cut_append`).
-/

namespace HoverTips.Text

def byteLength : List Char → Nat
  | [] => 0
  | c :: cs => c.utf8Size + byteLength cs

@[simp] theorem byteLength_nil : byteLength [] = 0 := rfl

@[simp] theorem byteLength_cons (c : Char) (cs : List Char) :
    byteLength (c :: cs) = c.utf8Size + byteLength cs := rfl

@[simp] theorem byteLength_append (a b : List Char) :
    byteLength (a ++ b) = byteLength a + byteLength b := by
  induction a with
  | nil => simp
  | cons c cs ih => simp [ih, Nat.add_assoc]

/-- The characters after the first `n` bytes. -/
def dropBytes? : Nat → List Char → Option (List Char)
  | 0, cs => some cs
  | _ + 1, [] => none
  | n + 1, c :: cs => if c.utf8Size ≤ n + 1 then dropBytes? (n + 1 - c.utf8Size) cs else none

/-- The characters that make up exactly the first `n` bytes. -/
def takeBytes? : Nat → List Char → Option (List Char)
  | 0, _ => some []
  | _ + 1, [] => none
  | n + 1, c :: cs =>
    if c.utf8Size ≤ n + 1 then (takeBytes? (n + 1 - c.utf8Size) cs).map (c :: ·) else none

/-- How many of the first `n` bytes belong to whole characters. -/
def wholeBytes : Nat → List Char → Nat
  | 0, _ => 0
  | _ + 1, [] => 0
  | n + 1, c :: cs =>
    if c.utf8Size ≤ n + 1 then c.utf8Size + wholeBytes (n + 1 - c.utf8Size) cs else 0

theorem byteLength_takeBytes? {n : Nat} {cs ds : List Char} (h : takeBytes? n cs = some ds) :
    byteLength ds = n := by
  fun_induction takeBytes? n cs generalizing ds with
  | case1 => cases h; rfl
  | case2 => cases h
  | case3 n c cs hc ih =>
    obtain ⟨es, he, rfl⟩ := Option.map_eq_some_iff.1 h
    have := ih he
    simp only [byteLength_cons]
    omega
  | case4 => cases h

theorem dropBytes?_append (a b : List Char) : dropBytes? (byteLength a) (a ++ b) = some b := by
  induction a with
  | nil => simp [dropBytes?]
  | cons c cs ih =>
    have hc := c.utf8Size_pos
    obtain ⟨k, hk⟩ : ∃ k, byteLength (c :: cs) = k + 1 :=
      ⟨byteLength (c :: cs) - 1, by simp only [byteLength_cons]; omega⟩
    have hle : c.utf8Size ≤ k + 1 := by rw [← hk]; simp
    have hsub : k + 1 - c.utf8Size = byteLength cs := by rw [← hk]; simp
    rw [hk, List.cons_append, dropBytes?, if_pos hle, hsub, ih]

theorem takeBytes?_append (a b : List Char) : takeBytes? (byteLength a) (a ++ b) = some a := by
  induction a with
  | nil => simp [takeBytes?]
  | cons c cs ih =>
    have hc := c.utf8Size_pos
    obtain ⟨k, hk⟩ : ∃ k, byteLength (c :: cs) = k + 1 :=
      ⟨byteLength (c :: cs) - 1, by simp only [byteLength_cons]; omega⟩
    have hle : c.utf8Size ≤ k + 1 := by rw [← hk]; simp
    have hsub : k + 1 - c.utf8Size = byteLength cs := by rw [← hk]; simp
    rw [hk, List.cons_append, takeBytes?, if_pos hle, hsub, ih]
    rfl

/-- Why the bytes between two offsets are no text. -/
inductive Misfit where
  /-- The offsets are in the wrong order or past the end. -/
  | outside
  /-- The first offset lies inside a character. -/
  | splitsStart
  /-- The last offset lies inside a character, `whole` bytes into the cut. -/
  | splitsEnd (whole : Nat)
  deriving DecidableEq, Repr

/-- The characters between byte `start` and byte `stop`. The empty cut is text at any offset. -/
def cut (cs : List Char) (start stop : Nat) : Except Misfit (List Char) :=
  if stop < start ∨ byteLength cs < stop then .error .outside
  else if start = stop then .ok []
  else match dropBytes? start cs with
    | none => .error .splitsStart
    | some rest => match takeBytes? (stop - start) rest with
      | none => .error (.splitsEnd (wholeBytes (stop - start) rest))
      | some piece => .ok piece

theorem byteLength_cut {cs piece : List Char} {start stop : Nat}
    (h : cut cs start stop = .ok piece) : start + byteLength piece = stop := by
  unfold cut at h
  split at h
  · cases h
  · split at h
    · cases h; simp; omega
    · split at h
      · cases h
      · split at h
        · cases h
        · rename_i hne _ _ _ _ hp
          cases h
          have := byteLength_takeBytes? hp
          omega

theorem cut_append (before piece after : List Char) :
    cut (before ++ piece ++ after) (byteLength before) (byteLength before + byteLength piece) =
      .ok piece := by
  unfold cut
  rw [if_neg (by simp only [byteLength_append]; omega)]
  split
  · rename_i he
    cases piece with
    | nil => rfl
    | cons c cs =>
      have := c.utf8Size_pos
      simp only [byteLength_cons] at he
      omega
  · simp only [List.append_assoc, dropBytes?_append, Nat.add_sub_cancel_left, takeBytes?_append]

/-- Whether an offset lies between characters, or at an end. -/
def isBoundary (cs : List Char) (offset : Nat) : Bool := (dropBytes? offset cs).isSome

end HoverTips.Text
