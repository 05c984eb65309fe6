import HoverTips.Proofs.Block.Tooltips

/-! # What digests tell apart

The bytes under a digest say what it is of: a text ends at a mark that no text
contains, and an offset has a fixed number of bytes. A step loses nothing of the
digest before it, so bytes that differ in one place alone never have the same digest,
whatever stands around that place. -/

namespace HoverTips.Digest

/-! ## Bytes that say where they end -/

/-- Whatever follows the bytes of a value, they show the value and what follows. -/
def SelfDelimiting {α : Type} (bytes : α → List UInt8) : Prop :=
  ∀ (a b : α) (rest others : List UInt8), bytes a ++ rest = bytes b ++ others →
    a = b ∧ rest = others

namespace SelfDelimiting

variable {α β : Type} {f : α → List UInt8} {g : β → List UInt8}

theorem injective (h : SelfDelimiting f) : Function.Injective f := by
  intro a b hab
  exact (h a b [] [] (congrArg (· ++ []) hab)).1

theorem of_length {n : Nat} (hf : Function.Injective f)
    (hlength : ∀ a, (f a).length = n) : SelfDelimiting f := by
  intro a b rest others h
  obtain ⟨hbytes, hrest⟩ := List.append_inj h ((hlength a).trans (hlength b).symm)
  exact ⟨hf hbytes, hrest⟩

theorem pair (hf : SelfDelimiting f) (hg : SelfDelimiting g) :
    SelfDelimiting fun p : α × β => f p.1 ++ g p.2 := by
  intro a b rest others h
  rw [List.append_assoc, List.append_assoc] at h
  obtain ⟨hfirst, hlater⟩ := hf _ _ _ _ h
  obtain ⟨hsecond, hrest⟩ := hg _ _ _ _ hlater
  exact ⟨Prod.ext hfirst hsecond, hrest⟩

end SelfDelimiting

/-! ## Texts -/

theorem toList_loop (bytes : ByteArray) (i : Nat) (taken : List UInt8) :
    ByteArray.toList.loop bytes i taken = taken.reverse ++ bytes.data.toList.drop i := by
  induction i, taken using ByteArray.toList.loop.induct bytes with
  | case1 i taken hi ih =>
    have hdrop : bytes.data.toList.drop i = bytes.data[i] :: bytes.data.toList.drop (i + 1) := by
      rw [List.drop_eq_getElem_cons (by simpa using hi)]
      rfl
    rw [ByteArray.toList.loop, if_pos hi, ih, hdrop]
    simp [ByteArray.get!, hi]
  | case2 i taken hi =>
    rw [ByteArray.toList.loop, if_neg hi, List.drop_of_length_le (by simpa using hi)]
    simp

theorem toList_eq (bytes : ByteArray) : bytes.toList = bytes.data.toList := by
  rw [ByteArray.toList, toList_loop]
  rfl

theorem toList_toUTF8 (s : String) :
    s.toUTF8.toList = s.toList.flatMap String.utf8EncodeChar := by
  have hbytes : s.toUTF8 = s.toList.utf8Encode := by simp
  rw [hbytes, toList_eq, List.utf8Encode]
  simp

theorem toUTF8_injective {s t : String} (h : s.toUTF8.toList = t.toUTF8.toList) : s = t := by
  rw [toList_eq, toList_eq] at h
  have hbytes : s.toUTF8 = t.toUTF8 := ByteArray.ext (Array.toList_inj.mp h)
  exact String.toByteArray_inj.mp hbytes

/-- UTF-8 does not use the highest bytes: a first byte is at most that of four, with three
bits of the code point in it. -/
theorem utf8EncodeChar_lt (c : Char) : ∀ b ∈ String.utf8EncodeChar c, b.toNat < 0xFF := by
  have hc : c.val.toNat < 0x110000 := by
    rcases c.valid with hlow | ⟨-, hhigh⟩
    · exact Nat.lt_trans hlow (by decide)
    · exact hhigh
  unfold String.utf8EncodeChar
  dsimp only
  split
  · simp only [List.forall_mem_cons, UInt8.toNat_ofNat']
    exact ⟨by omega, by simp⟩
  split
  · simp only [List.forall_mem_cons, UInt8.toNat_ofNat']
    exact ⟨by omega, by omega, by simp⟩
  split
  · simp only [List.forall_mem_cons, UInt8.toNat_ofNat']
    exact ⟨by omega, by omega, by omega, by simp⟩
  · simp only [List.forall_mem_cons, UInt8.toNat_ofNat']
    exact ⟨by omega, by omega, by omega, by omega, by simp⟩

theorem mark_notMem_toUTF8 (s : String) : 0xFF ∉ s.toUTF8.toList := by
  rw [toList_toUTF8]
  intro h
  obtain ⟨c, -, hc⟩ := List.mem_flatMap.mp h
  exact Nat.lt_irrefl _ (utf8EncodeChar_lt c _ hc)

/-- A text ends at the first mark. -/
theorem textBytes_selfDelimiting : SelfDelimiting textBytes := by
  intro s t rest others h
  rw [textBytes, textBytes, List.append_assoc, List.append_assoc, List.singleton_append,
    List.singleton_append] at h
  have hsplit := congrArg (List.splitOn 0xFF) h
  rw [List.splitOn_append_cons_self_of_not_mem (mark_notMem_toUTF8 s),
    List.splitOn_append_cons_self_of_not_mem (mark_notMem_toUTF8 t)] at hsplit
  have hbytes : s.toUTF8.toList = t.toUTF8.toList := (List.cons.inj hsplit).1
  rw [hbytes] at h
  exact ⟨toUTF8_injective hbytes, (List.cons.inj (List.append_cancel_left h)).2⟩

/-! ## Offsets -/

theorem offsetBytes_injective :
    Function.Injective fun offset : UInt64 => offsetBytes offset.toNat := by
  intro m n h
  refine UInt64.toNat_inj.mp (eq_of_digits (b := 256) (k := 8) m.toNat_lt n.toNat_lt fun i hi => ?_)
  have hbyte := List.map_inj_left.mp h i (List.mem_range.mpr hi)
  have hdigit := congrArg UInt8.toNat hbyte
  rw [UInt8.toNat_ofNat', UInt8.toNat_ofNat', Nat.mod_mod, Nat.mod_mod] at hdigit
  exact hdigit

theorem length_offsetBytes (n : Nat) : (offsetBytes n).length = 8 := by
  simp [offsetBytes]

theorem offsetBytes_selfDelimiting :
    SelfDelimiting fun offset : UInt64 => offsetBytes offset.toNat :=
  .of_length offsetBytes_injective fun _ => length_offsetBytes _

/-- The bytes of the ends of a span. -/
def endBytes (start stop : Nat) : List UInt8 := offsetBytes start ++ offsetBytes stop

/-- The bytes under the digest of a span in a block. -/
def spanBytes (block : String) (start stop : Nat) : List UInt8 :=
  textBytes block ++ endBytes start stop

/-- The bytes under the digest of a message about a span in a block. -/
def messageBytes (block : String) (start stop : Nat) (message : String) : List UInt8 :=
  textBytes block ++ (offsetBytes start ++ (offsetBytes stop ++ textBytes message))

theorem ofSpan_eq (block : String) (start stop : Nat) :
    ofSpan block start stop = ofBytes (spanBytes block start stop) := by
  rw [ofSpan, spanBytes, endBytes, List.append_assoc]

theorem ofMessage_eq (block : String) (start stop : Nat) (message : String) :
    ofMessage block start stop message = ofBytes (messageBytes block start stop message) := by
  rw [ofMessage, messageBytes, List.append_assoc, List.append_assoc]

theorem spanBytes_injective : Function.Injective fun p : String × UInt64 × UInt64 =>
    spanBytes p.1 p.2.1.toNat p.2.2.toNat :=
  (textBytes_selfDelimiting.pair
    (offsetBytes_selfDelimiting.pair offsetBytes_selfDelimiting)).injective

theorem messageBytes_injective : Function.Injective fun p : String × UInt64 × UInt64 × String =>
    messageBytes p.1 p.2.1.toNat p.2.2.1.toNat p.2.2.2 :=
  (textBytes_selfDelimiting.pair (offsetBytes_selfDelimiting.pair
    (offsetBytes_selfDelimiting.pair textBytes_selfDelimiting))).injective

/-! ## Steps -/

/-- The factor is odd, so it can be taken back. -/
theorem prime_mul_inverse : prime * 0xce965057aff6957b = 1 := by decide

theorem mul_prime_injective {c d : UInt64} (h : c * prime = d * prime) : c = d := by
  have hback := congrArg (· * 0xce965057aff6957b) h
  simpa only [UInt64.mul_assoc, prime_mul_inverse, UInt64.mul_one] using hback

theorem step_injective (byte : UInt8) : Function.Injective (step · byte) := by
  intro c d h
  exact (UInt64.xor_left_inj _).mp (mul_prime_injective h)

theorem step_byte_injective (digest : UInt64) : Function.Injective (step digest) := by
  intro x y h
  exact UInt8.toUInt64_inj.mp ((UInt64.xor_right_inj _).mp (mul_prime_injective h))

/-- Any bytes keep digests apart that are apart before them. -/
theorem foldl_step_injective (bytes : List UInt8) : Function.Injective (bytes.foldl step ·) := by
  induction bytes with
  | nil => exact fun _ _ h => h
  | cons byte bytes ih => exact ih.comp (step_injective byte)

/-- Bytes of one length that differ in exactly one place. -/
def DifferOnce (a b : List UInt8) : Prop := a.length = b.length ∧ ∃! i : Nat, a[i]? ≠ b[i]?

theorem DifferOnce.split {a b : List UInt8} (h : DifferOnce a b) :
    ∃ front x y back, a = front ++ x :: back ∧ b = front ++ y :: back ∧ x ≠ y := by
  obtain ⟨hlength, i, hi, honly⟩ := h
  have hsame : ∀ j, j ≠ i → a[j]? = b[j]? := fun j hj =>
    Decidable.byContradiction fun hne => hj (honly j hne)
  have hlt : i < a.length := by
    refine Decidable.byContradiction fun hge => hi ?_
    rw [List.getElem?_eq_none (by omega), List.getElem?_eq_none (by omega)]
  have hfront : a.take i = b.take i := by
    refine List.ext_getElem? fun j => ?_
    rw [List.getElem?_take, List.getElem?_take]
    split
    · exact hsame j (by omega)
    · rfl
  have hback : a.drop (i + 1) = b.drop (i + 1) := by
    refine List.ext_getElem? fun j => ?_
    rw [List.getElem?_drop, List.getElem?_drop]
    exact hsame _ (by omega)
  refine ⟨a.take i, a[i], b[i], a.drop (i + 1), ?_, ?_, ?_⟩
  · rw [← List.drop_eq_getElem_cons, List.take_append_drop]
  · rw [hfront, hback, ← List.drop_eq_getElem_cons, List.take_append_drop]
  · intro he
    rw [List.getElem?_eq_getElem hlt, List.getElem?_eq_getElem (hlength ▸ hlt), he] at hi
    exact hi rfl

theorem differOnce_append_cons (front back : List UInt8) {x y : UInt8} (h : x ≠ y) :
    DifferOnce (front ++ x :: back) (front ++ y :: back) := by
  refine ⟨by simp, front.length, by simpa using h, fun j hj => ?_⟩
  refine Decidable.byContradiction fun hne => hj ?_
  rcases Nat.lt_or_gt_of_ne hne with hlt | hgt
  · rw [List.getElem?_append_left hlt, List.getElem?_append_left hlt]
  · obtain ⟨k, rfl⟩ := Nat.exists_eq_add_of_lt hgt
    simp [List.getElem?_append_right, Nat.add_assoc]

/-- Bytes that differ once never have one digest: what stands in front leads both to one
digest, the step on the byte itself leads to two, and what stands behind keeps these
apart. -/
theorem foldl_step_ne {a b : List UInt8} (h : DifferOnce a b) (digest : UInt64) :
    a.foldl step digest ≠ b.foldl step digest := by
  obtain ⟨front, x, y, back, rfl, rfl, hne⟩ := h.split
  rw [List.foldl_append, List.foldl_append, List.foldl_cons, List.foldl_cons]
  exact fun he => hne (step_byte_injective _ (foldl_step_injective back he))

/-! ## Ids -/

theorem tokenId_ne {block : String} {s t : Span}
    (h : DifferOnce (endBytes s.start s.stop) (endBytes t.start t.stop)) :
    tokenId block s ≠ tokenId block t := by
  intro he
  have hdigest := tokenId_injective he
  rw [ofSpan_eq, ofSpan_eq, ofBytes, ofBytes, spanBytes, spanBytes, List.foldl_append,
    List.foldl_append] at hdigest
  exact foldl_step_ne h _ hdigest

/-- Digests are made of bytes that show the block and both offsets, and the message where
there is one. From any digest on, bytes that differ in exactly one place lead to digests
that differ, and a digest can be read off its sixteen digits. So the tooltips of two
tokens of a block have ids of their own whenever the bytes of the tokens' ends differ in
exactly one place. -/
theorem tells_apart :
    (∀ block start stop, ofSpan block start stop = ofBytes (spanBytes block start stop)) ∧
    (∀ block start stop message,
      ofMessage block start stop message = ofBytes (messageBytes block start stop message)) ∧
    (Function.Injective fun p : String × UInt64 × UInt64 =>
      spanBytes p.1 p.2.1.toNat p.2.2.toNat) ∧
    (Function.Injective fun p : String × UInt64 × UInt64 × String =>
      messageBytes p.1 p.2.1.toNat p.2.2.1.toNat p.2.2.2) ∧
    (∀ (digest : UInt64) (a b : List UInt8), DifferOnce a b →
      a.foldl step digest ≠ b.foldl step digest) ∧
    (∀ digest, (hex digest).length = 16) ∧ Function.Injective hex ∧
    ∀ (block : String) (t u : Token) (d e : Draft) (x y : TooltipRecord),
      tokenDraft block t = some d → tokenDraft block u = some e →
      d.record = .ok x → e.record = .ok y →
      DifferOnce (endBytes t.span.start t.span.stop) (endBytes u.span.start u.span.stop) →
      x.id ≠ y.id := by
  refine ⟨ofSpan_eq, ofMessage_eq, spanBytes_injective, messageBytes_injective,
    fun digest a b h => foldl_step_ne h digest, fun digest => ?_, fun _ _ => hex_injective, ?_⟩
  · simp [hex]
  · intro block t u d e x y ht hu hx hy h
    rw [(tokenDraft_id ht hx).2, (tokenDraft_id hu hy).2]
    exact tokenId_ne h

/-- A token with something to show. -/
def labelled (span : Span) : Token := ⟨span, .identifier, "fetch", some (.label "fetch"), none⟩

/-- Tokens that end one byte apart have different ids. -/
theorem tells_apart_ends :
    DifferOnce (endBytes 3 8) (endBytes 3 9) ∧
      ∃ d e x y, tokenDraft "retry.md#0" (labelled ⟨3, 8⟩) = some d ∧
        tokenDraft "retry.md#0" (labelled ⟨3, 9⟩) = some e ∧ d.record = .ok x ∧
        e.record = .ok y ∧ x.id ≠ y.id := by
  have hends : DifferOnce (endBytes 3 8) (endBytes 3 9) :=
    differOnce_append_cons (offsetBytes 3) [0, 0, 0, 0, 0, 0, 0] (by decide : (8 : UInt8) ≠ 9)
  have hdraft : ∀ span, tokenDraft "retry.md#0" (labelled span) =
      some ⟨"fetch", .ok (tokenTooltip "retry.md#0" (labelled span) (.label "fetch"))⟩ :=
    fun span => tokenDraft_of_text (by decide : "fetch" ≠ "")
  obtain ⟨-, -, -, -, -, -, -, hids⟩ := tells_apart
  exact ⟨hends, _, _, _, _, hdraft _, hdraft _, rfl, rfl,
    hids _ _ _ _ _ _ _ (hdraft _) (hdraft _) rfl rfl hends⟩

end HoverTips.Digest
