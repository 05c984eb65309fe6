import Mathlib.Data.List.TakeWhile
import Mathlib.Tactic.FieldSimp
import Mathlib.Tactic.Ring
import HoverTips.Proofs.Text.Fields
import HoverTips.Proofs.Tree.Values
import HoverTips.Proofs.Tree.Verdicts

/-! # Spellings of literals

A literal type accepts the literals that are shown like it, and not all literals of
its value: `1` refuses `1.0`. Where both are spelled plainly, with nothing in them that
could be left out or written in another way, the one has the value of the other only if
they are shown alike (`Literal.Plain.alike`), so nothing is reported that need not be
(`checkInitializer_by_spelling`). -/

namespace HoverTips.Tree

/-! ## Numbers -/

/-- Digits in base ten, as they are usually written before and behind a point: no zero
in front of other digits, and none at the end of a fraction. -/
structure UsualDigits (whole fraction : List Nat) : Prop where
  digits : ∀ d ∈ whole ++ fraction, d < 10
  nonempty : whole ≠ []
  leading : whole.head? = some 0 → whole = [0]
  trailing : fraction.getLast? ≠ some 0

theorem UsualDigits.whole_lt {whole fraction : List Nat} (h : UsualDigits whole fraction) :
    ∀ d ∈ whole, d < 10 := (List.forall_mem_append.mp h.digits).1

theorem UsualDigits.fraction_lt {whole fraction : List Nat} (h : UsualDigits whole fraction) :
    ∀ d ∈ fraction, d < 10 := (List.forall_mem_append.mp h.digits).2

def writeDigits (ds : List Nat) : List Char := ds.map Nat.digitChar

/-- A number in digits, with a point if it has a fraction. -/
def writeDecimal (whole fraction : List Nat) : List Char :=
  writeDigits whole ++ if fraction = [] then [] else '.' :: writeDigits fraction

theorem digit?_digitChar {d : Nat} (h : d < 10) : digit? 10 d.digitChar = some d := by
  revert h
  revert d
  decide

theorem digitChar_notMem {d : Nat} (h : d < 10) :
    d.digitChar ∉ ['_', 'e', 'E', '.', '-', '+', 'n'] := by
  revert h
  revert d
  decide

theorem of_mem_writeDigits {ds : List Nat} (h : ∀ d ∈ ds, d < 10) {c : Char}
    (hc : c ∈ writeDigits ds) : ∃ d < 10, d.digitChar = c := by
  obtain ⟨d, hd, rfl⟩ := List.mem_map.mp hc
  exact ⟨d, h d hd, rfl⟩

theorem digits?_of_plain {base : Nat} {cs : List Char} (h : '_' ∉ cs) :
    digits? base cs = cs.mapM (digit? base) := by
  rw [digits?, if_neg, List.filter_eq_self.mpr]
  · exact fun c hc => decide_eq_true fun he => h (he ▸ hc)
  · rintro (hc | hc | hc)
    · exact h (List.mem_of_head? hc)
    · exact h (List.mem_of_getLast? hc)
    · exact h (hc.subset (by simp))

theorem digits?_writeDigits {ds : List Nat} (h : ∀ d ∈ ds, d < 10) :
    digits? 10 (writeDigits ds) = some ds := by
  rw [digits?_of_plain]
  · induction ds with
    | nil => rfl
    | cons d ds ih =>
      rw [List.forall_mem_cons] at h
      rw [writeDigits, List.map_cons, List.mapM_cons, digit?_digitChar h.1]
      show (List.mapM (digit? 10) (writeDigits ds) >>= fun rest => some (d :: rest)) = _
      rw [ih h.2]
      rfl
  · intro hc
    obtain ⟨d, hd, he⟩ := of_mem_writeDigits h hc
    exact digitChar_notMem hd (by simp [he])

theorem writeDigits_plain {ds : List Nat} (h : ∀ d ∈ ds, d < 10) :
    ∀ c ∈ writeDigits ds, inMantissa c = true ∧ beforePoint c = true ∧ c ≠ 'n' := by
  intro c hc
  obtain ⟨d, hd, rfl⟩ := of_mem_writeDigits h hc
  have hnot := digitChar_notMem hd
  simp only [List.mem_cons, not_or] at hnot
  simp [inMantissa, beforePoint, hnot]

theorem writeDecimal_plain {whole fraction : List Nat} (h : UsualDigits whole fraction) :
    ∀ c ∈ writeDecimal whole fraction, inMantissa c = true ∧ c ≠ 'n' := by
  have hdigits : ∀ {ds : List Nat}, (∀ d ∈ ds, d < 10) →
      ∀ c ∈ writeDigits ds, inMantissa c = true ∧ c ≠ 'n' := fun hds c hc =>
    ⟨(writeDigits_plain hds c hc).1, (writeDigits_plain hds c hc).2.2⟩
  refine List.forall_mem_append.mpr ⟨hdigits h.whole_lt, ?_⟩
  split
  · nofun
  · exact List.forall_mem_cons.mpr ⟨by decide, hdigits h.fraction_lt⟩

theorem writeDecimal_split {whole fraction : List Nat} (h : UsualDigits whole fraction) :
    (writeDecimal whole fraction).takeWhile beforePoint = writeDigits whole ∧
      ((writeDecimal whole fraction).dropWhile beforePoint).drop 1 = writeDigits fraction := by
  have hbefore : ∀ c ∈ writeDigits whole, beforePoint c = true :=
    fun c hc => (writeDigits_plain h.whole_lt c hc).2.1
  rw [writeDecimal, List.takeWhile_append_of_pos hbefore, List.dropWhile_append_of_pos hbefore]
  split
  · rename_i hnone
    rw [hnone]
    exact ⟨List.append_nil _, rfl⟩
  · exact ⟨List.append_nil _, rfl⟩

theorem decimal?_writeDecimal {whole fraction : List Nat} (h : UsualDigits whole fraction) :
    decimal? (writeDecimal whole fraction) =
      some (fromDigits 10 (whole ++ fraction) * (10 : ℚ) ^ (-(fraction.length : ℤ))) := by
  have hmantissa : ∀ c ∈ writeDecimal whole fraction, inMantissa c = true :=
    fun c hc => (writeDecimal_plain h c hc).1
  have hnoExponent : (writeDecimal whole fraction).dropWhile inMantissa = [] :=
    List.dropWhile_eq_nil_iff.mpr hmantissa
  have husual : ¬(whole ++ fraction = [] ∨ whole.head? = some 0 ∧ whole ≠ [0]) := by
    rintro (hnone | ⟨hzero, hne⟩)
    · exact h.nonempty (List.append_eq_nil_iff.mp hnone).1
    · exact hne (h.leading hzero)
  simp only [decimal?, Text.takeWhile_of_all hmantissa, (writeDecimal_split h).1,
    (writeDecimal_split h).2, digits?_writeDigits h.whole_lt, digits?_writeDigits h.fraction_lt,
    hnoExponent, exponent?, Option.bind_eq_bind, Option.bind_some, if_neg husual, zero_sub]

theorem fromDigits_append {whole fraction : List Nat} :
    fromDigits 10 (whole ++ fraction) =
      fromDigits 10 whole * 10 ^ fraction.length + fromDigits 10 fraction := by
  rw [fromDigits, fromDigits, fromDigits, List.reverse_append, Nat.ofDigits_append,
    List.length_reverse]
  ring

theorem fromDigits_lt {ds : List Nat} (h : ∀ d ∈ ds, d < 10) :
    fromDigits 10 ds < 10 ^ ds.length := by
  rw [fromDigits, ← List.length_reverse]
  exact Nat.ofDigits_lt_base_pow_length (by decide) fun d hd => h d (List.mem_reverse.mp hd)

theorem fromDigits_inj {ds ds' : List Nat} (hlen : ds.length = ds'.length)
    (h : ∀ d ∈ ds, d < 10) (h' : ∀ d ∈ ds', d < 10)
    (heq : fromDigits 10 ds = fromDigits 10 ds') : ds = ds' := by
  refine List.reverse_injective (Nat.ofDigits_inj_of_len_eq (by decide) (by simpa using hlen)
    ?_ ?_ heq)
  · exact fun d hd => h d (List.mem_reverse.mp hd)
  · exact fun d hd => h' d (List.mem_reverse.mp hd)

theorem digits_fromDigits {ds : List Nat} (h : ∀ d ∈ ds, d < 10) (hhead : ds.head? ≠ some 0) :
    Nat.digits 10 (fromDigits 10 ds) = ds.reverse := by
  refine Nat.digits_ofDigits 10 (by decide) _ (fun d hd => h d (List.mem_reverse.mp hd)) ?_
  intro hne hzero
  rw [List.getLast_reverse] at hzero
  exact hhead (List.head?_eq_some_head _ ▸ congrArg some hzero)

/-- The digits before the point are those of the whole part. -/
theorem UsualDigits.whole_inj {whole whole' fraction fraction' : List Nat}
    (h : UsualDigits whole fraction) (h' : UsualDigits whole' fraction')
    (heq : fromDigits 10 whole = fromDigits 10 whole') : whole = whole' := by
  by_cases hzero : whole.head? = some 0
  · by_cases hzero' : whole'.head? = some 0
    · rw [h.leading hzero, h'.leading hzero']
    · have hdigits := digits_fromDigits h'.whole_lt hzero'
      rw [← heq, h.leading hzero] at hdigits
      exact absurd (List.reverse_eq_nil_iff.mp hdigits.symm) h'.nonempty
  · by_cases hzero' : whole'.head? = some 0
    · have hdigits := digits_fromDigits h.whole_lt hzero
      rw [heq, h'.leading hzero'] at hdigits
      exact absurd (List.reverse_eq_nil_iff.mp hdigits.symm) h.nonempty
    · have hdigits := digits_fromDigits h.whole_lt hzero
      rw [heq, digits_fromDigits h'.whole_lt hzero'] at hdigits
      exact (List.reverse_injective hdigits).symm

/-- A fraction has no more digits than another one of the same value. -/
theorem UsualDigits.length_le {whole whole' fraction fraction' : List Nat}
    (h' : UsualDigits whole' fraction')
    (heq : fromDigits 10 (whole ++ fraction) * 10 ^ fraction'.length =
      fromDigits 10 (whole' ++ fraction') * 10 ^ fraction.length) :
    fraction'.length ≤ fraction.length := by
  by_contra hlt
  obtain ⟨k, hk⟩ := Nat.exists_eq_add_of_lt (Nat.lt_of_not_le hlt)
  obtain ⟨init, d, rfl⟩ : ∃ init d, fraction' = init ++ [d] := by
    rcases List.eq_nil_or_concat fraction' with rfl | ⟨init, d, rfl⟩
    · simp at hlt
    · exact ⟨init, d, by simp⟩
  have hd : d < 10 := h'.digits d (by simp)
  have hne : d ≠ 0 := by simpa using h'.trailing
  have hvalue : fromDigits 10 (whole' ++ (init ++ [d])) =
      fromDigits 10 (whole' ++ init) * 10 + d := by
    rw [← List.append_assoc, fromDigits_append]
    rfl
  -- The last digit is all that keeps the number from being a multiple of ten.
  have hmultiple : fromDigits 10 (whole ++ fraction) * 10 ^ k * 10 =
      fromDigits 10 (whole' ++ init) * 10 + d := by
    have hpos : 0 < 10 ^ fraction.length := by positivity
    refine Nat.eq_of_mul_eq_mul_right hpos ?_
    rw [← hvalue, ← heq, hk]
    ring
  omega

theorem UsualDigits.inj {whole whole' fraction fraction' : List Nat}
    (h : UsualDigits whole fraction) (h' : UsualDigits whole' fraction')
    (heq : fromDigits 10 (whole ++ fraction) * (10 : ℚ) ^ (-(fraction.length : ℤ)) =
      fromDigits 10 (whole' ++ fraction') * (10 : ℚ) ^ (-(fraction'.length : ℤ))) :
    whole = whole' ∧ fraction = fraction' := by
  have hcross : fromDigits 10 (whole ++ fraction) * 10 ^ fraction'.length =
      fromDigits 10 (whole' ++ fraction') * 10 ^ fraction.length := by
    rw [zpow_neg, zpow_neg, zpow_natCast, zpow_natCast] at heq
    field_simp at heq
    rw [mul_comm (fromDigits 10 (whole' ++ fraction'))]
    exact_mod_cast heq
  have hlen : fraction.length = fraction'.length :=
    Nat.le_antisymm (h.length_le hcross.symm) (h'.length_le hcross)
  have hpos : 0 < 10 ^ fraction.length := by positivity
  rw [← hlen] at hcross
  have hnumber := Nat.eq_of_mul_eq_mul_right hpos hcross
  have hlt := fromDigits_lt h.fraction_lt
  have hlt' := fromDigits_lt h'.fraction_lt
  rw [fromDigits_append, fromDigits_append, ← hlen] at hnumber
  rw [← hlen] at hlt'
  have hwhole : fromDigits 10 whole = fromDigits 10 whole' := by
    have hdiv := congrArg (· / 10 ^ fraction.length) hnumber
    simpa [Nat.mul_add_div hpos, Nat.div_eq_of_lt, hlt, hlt', mul_comm] using hdiv
  rw [hwhole] at hnumber
  exact ⟨h.whole_inj h' hwhole,
    fromDigits_inj hlen h.fraction_lt h'.fraction_lt (Nat.add_left_cancel hnumber)⟩

/-! ## Strings -/

/-- The units of a character tell where it ends. -/
theorem utf16_append_inj {c c' : Char} {us us' : List Nat}
    (h : utf16 c.toNat ++ us = utf16 c'.toNat ++ us') : c = c' ∧ us = us' := by
  have hvalid : c.toNat < 0xD800 ∨ 0xDFFF < c.toNat ∧ c.toNat < 0x110000 := c.valid
  have hvalid' : c'.toNat < 0xD800 ∨ 0xDFFF < c'.toNat ∧ c'.toNat < 0x110000 := c'.valid
  have hpoint : c.toNat = c'.toNat ∧ us = us' := by
    unfold utf16 at h
    split at h <;> split at h <;> simp at h
    · exact h
    · omega
    · omega
    · exact ⟨by omega, h.2.2⟩
  exact ⟨Char.toNat_inj.mp hpoint.1, hpoint.2⟩

theorem utf16_ne_nil (point : Nat) : utf16 point ≠ [] := by
  unfold utf16
  split <;> simp

theorem flatMap_utf16_injective :
    Function.Injective fun cs : List Char => cs.flatMap fun c => utf16 c.toNat := by
  intro cs cs' h
  induction cs generalizing cs' with
  | nil =>
    cases cs' with
    | nil => rfl
    | cons c cs' => exact absurd (List.append_eq_nil_iff.mp h.symm).1 (utf16_ne_nil _)
  | cons c cs ih =>
    cases cs' with
    | nil => exact absurd (List.append_eq_nil_iff.mp h).1 (utf16_ne_nil _)
    | cons c' cs' =>
      obtain ⟨rfl, htail⟩ := utf16_append_inj h
      rw [ih htail]

/-- Without escapes and carriage returns every character stands for itself. -/
theorem contents?_of_plain {quote : Char} {cs : List Char} {units : List Nat}
    (h : ∀ c ∈ cs, c ≠ '\\' ∧ c ≠ '\r') (hread : contents? quote .plain cs = some units) :
    units = cs.flatMap fun c => utf16 c.toNat := by
  induction cs generalizing units with
  | nil => exact (Option.some.inj hread).symm
  | cons c cs ih =>
    rw [List.forall_mem_cons] at h
    rw [contents?, if_neg h.1.1] at hread
    split at hread
    · contradiction
    · rw [if_neg h.1.2] at hread
      obtain ⟨rest, hrest, rfl⟩ := Option.map_eq_some_iff.mp hread
      rw [ih h.2 hrest, List.flatMap_cons]

theorem isSpace_of_isQuote {c : Char} (h : isQuote c = true) : Text.isSpace c = false := by
  simp only [isQuote, Bool.or_eq_true, beq_iff_eq] at h
  rcases h with (rfl | rfl) | rfl <;> decide

theorem unquote_quoted {quote : Char} {cs : List Char} (h : isQuote quote = true) :
    unquote (String.ofList (quote :: cs ++ [quote])) = String.ofList cs := by
  have hspace := isSpace_of_isQuote h
  have htrim : Text.trim (quote :: cs ++ [quote]) = quote :: cs ++ [quote] :=
    Text.trim_of_ends (by simpa using hspace) (by rw [List.getLast?_concat]; simpa using hspace)
  rw [unquote, String.toList_ofList, htrim]
  cases cs with
  | nil => simp [h]
  | cons c cs =>
    show (if isQuote quote && (c :: cs ++ [quote]).getLast? == some quote then
      String.ofList (c :: cs ++ [quote]).dropLast else _) = _
    rw [List.getLast?_concat, List.dropLast_concat, if_pos (by simp [h])]

/-! ## Plain literals -/

/-- The literals have the same value. Numbers are compared as they are written and not by
the double that they round to: `9007199254740992` and `9007199254740993` are one double
and have two values here. A check that compared doubles would let the one be the type of
the other. They are spelled plainly, so here they are shown differently and reported. -/
def SameValue (l l' : Literal) : Prop := ∃ v, l.value? = some v ∧ l'.value? = some v

/-- The literals belong to the same type and are shown alike. -/
def Alike (l l' : Literal) : Prop := l.base = l'.base ∧ l.shown = l'.shown

/-- A literal that is spelled without anything that could be left out: a number in base
ten with its usual digits only, a string without a backslash and a carriage return. -/
inductive Literal.Plain : Literal → Prop
  | number {whole fraction : List Nat} (h : UsualDigits whole fraction) :
      Plain ⟨.number, String.ofList (writeDecimal whole fraction)⟩
  | bigint {whole : List Nat} (h : UsualDigits whole []) :
      Plain ⟨.bigint, String.ofList (writeDigits whole ++ ['n'])⟩
  | string {quote : Char} {cs : List Char} (hquote : isQuote quote = true)
      (h : ∀ c ∈ cs, c ≠ '\\' ∧ c ≠ '\r') :
      Plain ⟨.string, String.ofList (quote :: cs ++ [quote])⟩
  | boolean (b : Bool) : Plain ⟨.boolean, toString b⟩

theorem natural?_writeDigits {ds : List Nat} (h : ∀ d ∈ ds, d < 10) (hne : ds ≠ []) :
    natural? 10 (writeDigits ds) = some (fromDigits 10 ds) := by
  rw [natural?, digits?_writeDigits h, Option.bind_eq_bind, Option.bind_some, if_neg hne]

theorem whole?_writeDigits {whole : List Nat} (h : UsualDigits whole []) :
    whole? (writeDigits whole) = some (fromDigits 10 whole) := by
  rw [← natural?_writeDigits h.whole_lt h.nonempty, whole?]
  rintro c cs hmarked
  -- A zero in front of another character is the mark of a base.
  cases whole with
  | nil => nomatch hmarked
  | cons d ds =>
    obtain ⟨hzero, hrest⟩ := List.cons.inj hmarked
    have hd : d = 0 := by
      have hread := digit?_digitChar (h.whole_lt d (by simp))
      rw [hzero] at hread
      exact (Option.some.inj hread).symm
    obtain ⟨-, rfl⟩ := List.cons.inj (h.leading (by rw [hd]; rfl))
    nomatch hrest

/-- A text that begins with a digit has no sign. -/
theorem number?_of_digit {whole : List Nat} {cs : List Char} (hlt : ∀ d ∈ whole, d < 10)
    (hne : whole ≠ []) :
    number? (writeDigits whole ++ cs) = unsigned? (writeDigits whole ++ cs) := by
  obtain ⟨d, ds, rfl⟩ := List.exists_cons_of_ne_nil hne
  have hnot := digitChar_notMem (hlt d (by simp))
  rw [writeDigits, List.map_cons, List.cons_append, number?]
  · exact fun cs h => hnot (by simp [(List.cons.inj h).1])
  · exact fun cs h => hnot (by simp [(List.cons.inj h).1])

theorem value?_number {whole fraction : List Nat} (h : UsualDigits whole fraction) :
    Literal.value? ⟨.number, String.ofList (writeDecimal whole fraction)⟩ =
      some (.number (fromDigits 10 (whole ++ fraction) * 10 ^ (-(fraction.length : ℤ)))) := by
  have hlast : (writeDecimal whole fraction).getLast? ≠ some 'n' := fun hn =>
    (writeDecimal_plain h 'n' (List.mem_of_getLast? hn)).2 rfl
  show number? (String.ofList (writeDecimal whole fraction)).toList = _
  rw [String.toList_ofList, writeDecimal, number?_of_digit h.whole_lt h.nonempty, ← writeDecimal,
    unsigned?, if_neg hlast, decimal?_writeDecimal h]
  rfl

theorem value?_bigint {whole : List Nat} (h : UsualDigits whole []) :
    Literal.value? ⟨.bigint, String.ofList (writeDigits whole ++ ['n'])⟩ =
      some (.bigint (fromDigits 10 whole)) := by
  show number? (String.ofList (writeDigits whole ++ ['n'])).toList = _
  rw [String.toList_ofList, number?_of_digit h.whole_lt h.nonempty, unsigned?, List.getLast?_concat,
    if_pos rfl, List.dropLast_concat, whole?_writeDigits h]
  rfl

theorem value?_string {quote : Char} {cs : List Char} {v : Value} (hquote : isQuote quote = true)
    (h : ∀ c ∈ cs, c ≠ '\\' ∧ c ≠ '\r')
    (hv : Literal.value? ⟨.string, String.ofList (quote :: cs ++ [quote])⟩ = some v) :
    v = .string (cs.flatMap fun c => utf16 c.toNat) := by
  have hread : (string? (String.ofList (quote :: cs ++ [quote])).toList).map .string = some v := hv
  rw [String.toList_ofList, List.cons_append, string?, List.getLast?_concat,
    if_pos ⟨hquote, rfl⟩, List.dropLast_concat] at hread
  obtain ⟨units, hunits, rfl⟩ := Option.map_eq_some_iff.mp hread
  rw [contents?_of_plain h hunits]

theorem value?_boolean (b : Bool) : Literal.value? ⟨.boolean, toString b⟩ = some (.boolean b) := by
  cases b <;> rfl

/-- The type that a value belongs to. -/
def Value.base : Value → LiteralBase
  | number _ => .number
  | bigint _ => .bigint
  | string _ => .string
  | boolean _ => .boolean
  | null => .null
  | undefined => .undefined

theorem Literal.Plain.base_eq {l : Literal} {v : Value} (h : l.Plain) (hv : l.value? = some v) :
    l.base = v.base := by
  cases h with
  | number h => rw [← Option.some.inj ((value?_number h).symm.trans hv)]; rfl
  | bigint h => rw [← Option.some.inj ((value?_bigint h).symm.trans hv)]; rfl
  | string hquote h => rw [value?_string hquote h hv]; rfl
  | boolean b => rw [← Option.some.inj ((value?_boolean b).symm.trans hv)]; rfl

/-- Plain literals of the same value are alike. -/
theorem Literal.Plain.alike {l l' : Literal} (h : l.Plain) (h' : l'.Plain)
    (hsame : SameValue l l') : Alike l l' := by
  obtain ⟨v, hv, hv'⟩ := hsame
  have hbase : l.base = l'.base := (h.base_eq hv).trans (h'.base_eq hv').symm
  refine ⟨hbase, ?_⟩
  cases h with
  | number h =>
    cases h' with
    | number h' =>
      rw [value?_number h] at hv
      rw [value?_number h'] at hv'
      obtain ⟨rfl, rfl⟩ := h.inj h' (Value.number.inj (Option.some.inj (hv.trans hv'.symm)))
      rfl
    | bigint | string | boolean => nomatch hbase
  | bigint h =>
    cases h' with
    | bigint h' =>
      rw [value?_bigint h] at hv
      rw [value?_bigint h'] at hv'
      have hvalue := Value.bigint.inj (Option.some.inj (hv.trans hv'.symm))
      rw [h.whole_inj h' (Int.ofNat.inj hvalue)]
    | number | string | boolean => nomatch hbase
  | string hquote h =>
    cases h' with
    | string hquote' h' =>
      have hunits := (value?_string hquote h hv).symm.trans (value?_string hquote' h' hv')
      rw [flatMap_utf16_injective (Value.string.inj hunits), Literal.shown, Literal.shown,
        if_pos rfl, if_pos rfl, unquote_quoted hquote, unquote_quoted hquote']
    | number | bigint | boolean => nomatch hbase
  | boolean b =>
    cases h' with
    | boolean b' =>
      rw [value?_boolean] at hv hv'
      rw [Value.boolean.inj (Option.some.inj (hv.trans hv'.symm))]
    | number | bigint | string => nomatch hbase

/-! ## Alarms -/

/-- A literal type accepts the literals that are shown alike. -/
theorem Leaf.accepts_literal_iff {target l : Literal} :
    (Leaf.literal (some target)).Accepts l ↔ Alike target l := by
  constructor
  · intro h
    cases h with
    | alike hbase hshown => exact ⟨hbase, hshown⟩
  · exact fun h => .alike h.1 h.2

/-- It refuses all others. -/
theorem Leaf.refuses_literal_iff {target l : Literal} :
    (Leaf.literal (some target)).Refuses l ↔ ¬Alike target l := by
  constructor
  · intro h
    cases h with
    | literal hother => exact hother
  · exact .literal

/-- A literal type that refuses a literal has it shown as a literal type. -/
theorem refusal?_of_literal {l : Literal} {leaves : List Leaf} {target : Option Literal}
    (h : .literal target ∈ leaves) :
    refusal? l leaves =
      if (l.base ≠ .null ∧ l.base ≠ .undefined) ∧ ∀ leaf ∈ leaves, leaf.Refuses l then
        some l.shown
      else none := by
  have hliteral : ∃ leaf ∈ leaves, leaf.isLiteral = true := ⟨_, h, rfl⟩
  rw [refusal?, if_pos hliteral]
  split
  · rename_i hl
    rw [if_neg fun hboth => not_or.mpr hboth.1 hl]
  · rename_i hl
    simp [not_or.mp hl]

/-- A declaration whose type has a literal type of the very value of its initializer is
not reported when the two are shown alike, and so when both are spelled plainly. It is
reported exactly when the initializer is neither `null` nor `undefined` and every leaf
of the type refuses it, as a literal type of its value does that is shown in another
way. -/
theorem checkInitializer_by_spelling {src : List Char} {cs : List Node} {type value : Node}
    {l target : Literal} {leaves : List Leaf} (h : Declares src cs type value l)
    (hleaves : type.readLeaves src = .ok leaves) (htarget : .literal (some target) ∈ leaves)
    (hsame : SameValue target l) :
    (Alike target l → checkInitializer src cs = .ok none) ∧
      (target.Plain → l.Plain → checkInitializer src cs = .ok none) ∧
      ((Leaf.literal (some target)).Refuses l ↔ ¬Alike target l) ∧
      Reports src cs type value
        (if (l.base ≠ .null ∧ l.base ≠ .undefined) ∧ ∀ leaf ∈ leaves, leaf.Refuses l then
          some l.shown
        else none) := by
  have hsilent : Alike target l → checkInitializer src cs = .ok none := fun halike =>
    h.silent_of_accepts hleaves ⟨_, htarget, Leaf.accepts_literal_iff.mpr halike⟩
  refine ⟨hsilent, fun hplain hplain' => hsilent (hplain.alike hplain' hsame),
    Leaf.refuses_literal_iff, ?_⟩
  rw [← refusal?_of_literal htarget]
  exact h.reports hleaves

/-- A declaration with a literal for its type and for its value. -/
def literalDeclaration (kind : String) (type value : Span) : List Node :=
  [.mk ⟨"type_annotation", true, false, false, ⟨7, type.stop⟩, ["type"]⟩
      [.mk ⟨"literal_type", true, false, false, type, []⟩
        [.mk ⟨kind, true, false, false, type, []⟩ []]],
    .mk ⟨kind, true, false, false, value, ["value"]⟩ []]

/-- The same string in other quotes. -/
theorem checkInitializer_by_spelling_quotes :
    let src := "const q: 'a' = \"a\"".toList
    SameValue ⟨.string, "'a'"⟩ ⟨.string, "\"a\""⟩ ∧
      Literal.Plain ⟨.string, "'a'"⟩ ∧ Literal.Plain ⟨.string, "\"a\""⟩ ∧
      checkInitializer src (literalDeclaration "string" ⟨9, 12⟩ ⟨15, 18⟩) = .ok none := by
  intro src
  have hdeclares : Declares src (literalDeclaration "string" ⟨9, 12⟩ ⟨15, 18⟩)
      (.mk ⟨"literal_type", true, false, false, ⟨9, 12⟩, []⟩
        [.mk ⟨"string", true, false, false, ⟨9, 12⟩, []⟩ []])
      (.mk ⟨"string", true, false, false, ⟨15, 18⟩, ["value"]⟩ []) ⟨.string, "\"a\""⟩ :=
    ⟨⟨_, rfl, rfl⟩, rfl, rfl⟩
  have hsame : SameValue ⟨.string, "'a'"⟩ ⟨.string, "\"a\""⟩ := ⟨.string [97], rfl, rfl⟩
  have hplain : ∀ quote, isQuote quote = true →
      Literal.Plain ⟨.string, String.ofList [quote, 'a', quote]⟩ := fun quote hquote =>
    show Literal.Plain ⟨.string, String.ofList (quote :: ['a'] ++ [quote])⟩ from
      .string hquote (by simp)
  have hleaves : Node.readLeaves src (.mk ⟨"literal_type", true, false, false, ⟨9, 12⟩, []⟩
      [.mk ⟨"string", true, false, false, ⟨9, 12⟩, []⟩ []]) =
        .ok [.literal (some ⟨.string, "'a'"⟩)] := rfl
  obtain ⟨-, hsilent, -⟩ :=
    checkInitializer_by_spelling hdeclares hleaves (List.mem_singleton.mpr rfl) hsame
  exact ⟨hsame, hplain '\'' rfl, hplain '"' rfl, hsilent (hplain '\'' rfl) (hplain '"' rfl)⟩

/-- A report about a declaration whose type has a literal type of the very value of its
initializer. -/
structure FalseAlarm (src : List Char) (cs : List Node) (report : Diagnostic) : Prop where
  same : ∃ type value l target, Declares src cs type value l ∧
    (∃ leaves, type.readLeaves src = .ok leaves ∧ .literal (some target) ∈ leaves) ∧
      SameValue target l
  reported : (checkInitializer src cs).toOption = some (some report)

/-- `1.0` has the value of the type `1`, and `'\''` that of the type `"'"`, and yet both
declarations are reported. -/
theorem checkInitializer_by_spelling_differs :
    FalseAlarm "const x: 1 = 1.0".toList (literalDeclaration "number" ⟨9, 10⟩ ⟨13, 16⟩)
        ⟨⟨13, 16⟩, "Type '1.0' is not assignable to type '1'."⟩ ∧
      FalseAlarm "const q: \"'\" = '\\''".toList (literalDeclaration "string" ⟨9, 12⟩ ⟨15, 19⟩)
        ⟨⟨15, 19⟩, "Type '\"\\'\"' is not assignable to type '\"'\"'."⟩ := by
  constructor
  · refine ⟨⟨_, _, _, ⟨.number, "1"⟩, ⟨⟨_, rfl, rfl⟩, rfl, rfl⟩,
      ⟨_, rfl, List.mem_singleton.mpr rfl⟩, ⟨.number 1, ?_, ?_⟩⟩, ?_⟩ <;> decide +kernel
  · refine ⟨⟨_, _, _, ⟨.string, "\"'\""⟩, ⟨⟨_, rfl, rfl⟩, rfl, rfl⟩,
      ⟨_, rfl, List.mem_singleton.mpr rfl⟩, ⟨.string [39], rfl, rfl⟩⟩, ?_⟩
    decide +kernel

end HoverTips.Tree
