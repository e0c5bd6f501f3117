import Mathlib.Data.List.Basic
import Mathlib.Data.Nat.Basic
import Mathlib.Logic.Function.Basic
import Mathlib.Tactic.IntervalCases
import Mathlib.Tactic.Common

/-!
# Self-delimiting text encodings

A writer `enc : α → List Char` is **self-delimiting** when its output can be cut off the front of any
longer text in only one way.  Self-delimiting writers compose by concatenation, so a compact document
format built from them is injective: two documents with the same text are the same document.

* `Delimited` with its composition rules `pair`, `between`, `comap`, `list`;
* `escapeChar`, `writeString` - string literals with the compact JSON escapes;
* `writeNat` - decimal numbers, self-delimiting once a terminator follows;
* `writeHex` - hexadecimal numbers of a fixed width.
-/

namespace TextCode

variable {α β : Type*}

/-- The output of `enc` determines both the value and where it ends. -/
def Delimited (enc : α → List Char) : Prop :=
  ∀ a b r s, enc a ++ r = enc b ++ s → a = b ∧ r = s

theorem Delimited.injective {enc : α → List Char} (h : Delimited enc) : Function.Injective enc := by
  intro a b hab
  exact (h a b [] [] (by rw [hab])).1

/-- A writer with a reader that takes exactly its output back off is self-delimiting. -/
theorem delimited_of_read {enc : α → List Char} (read : List Char → Option (α × List Char))
    (h : ∀ a r, read (enc a ++ r) = some (a, r)) : Delimited enc := by
  intro a b r s hab
  have hread : some (a, r) = some (b, s) := by rw [← h a r, hab, h b s]
  simpa using hread

theorem Delimited.pair {f : α → List Char} {g : β → List Char} (hf : Delimited f)
    (hg : Delimited g) : Delimited fun p : α × β => f p.1 ++ g p.2 := by
  rintro ⟨a, b⟩ ⟨a', b'⟩ r s h
  simp only [List.append_assoc] at h
  obtain ⟨rfl, h'⟩ := hf a a' _ _ h
  obtain ⟨rfl, hr⟩ := hg b b' _ _ h'
  exact ⟨rfl, hr⟩

/-- Fixed text around a writer. -/
theorem Delimited.between {f : α → List Char} (hf : Delimited f) (before after : List Char) :
    Delimited fun a => before ++ (f a ++ after) := by
  intro a b r s h
  simp only [List.append_assoc, List.append_cancel_left_eq] at h
  obtain ⟨rfl, h'⟩ := hf a b _ _ h
  exact ⟨rfl, List.append_cancel_left h'⟩

theorem Delimited.comap {f : β → List Char} (hf : Delimited f) {g : α → β}
    (hg : Function.Injective g) : Delimited fun a => f (g a) := by
  intro a b r s h
  obtain ⟨hab, hr⟩ := hf _ _ r s h
  exact ⟨hg hab, hr⟩

/-! ### Sequences -/

/-- The items one after another, closed by a terminator. -/
def writeSeq (enc : α → List Char) (term : Char) : List α → List Char
  | [] => [term]
  | a :: as => enc a ++ writeSeq enc term as

/-- No output of `enc` starts with `c` (nor is it empty). -/
def NotOpening (c : Char) (enc : α → List Char) : Prop :=
  ∀ a, ∃ d rest, enc a = d :: rest ∧ d ≠ c

theorem Delimited.seq {enc : α → List Char} {term : Char} (h : Delimited enc)
    (hopen : NotOpening term enc) : Delimited (writeSeq enc term) := by
  intro as
  induction as with
  | nil =>
    intro bs r s heq
    cases bs with
    | nil => exact ⟨rfl, by simpa [writeSeq] using heq⟩
    | cons b bs =>
      obtain ⟨d, rest, hd, hne⟩ := hopen b
      simp only [writeSeq, hd, List.cons_append, List.cons.injEq, List.nil_append] at heq
      exact absurd heq.1.symm hne
  | cons a as ih =>
    intro bs r s heq
    cases bs with
    | nil =>
      obtain ⟨d, rest, hd, hne⟩ := hopen a
      simp only [writeSeq, hd, List.cons_append, List.cons.injEq, List.nil_append] at heq
      exact absurd heq.1 hne
    | cons b bs =>
      simp only [writeSeq, List.append_assoc] at heq
      obtain ⟨rfl, htail⟩ := h a b _ _ heq
      obtain ⟨rfl, hr⟩ := ih bs r s htail
      exact ⟨rfl, hr⟩

/-- A bracketed, comma-separated list. -/
def writeList (enc : α → List Char) : List α → List Char
  | [] => ['[', ']']
  | a :: as => '[' :: (enc a ++ writeSeq (fun b => ',' :: enc b) ']' as)

theorem Delimited.list {enc : α → List Char} (h : Delimited enc) (hopen : NotOpening ']' enc) :
    Delimited (writeList enc) := by
  have htail : Delimited (writeSeq (fun b => ',' :: enc b) ']') := by
    apply Delimited.seq
    · intro a b r s hab
      exact h a b r s (by simpa using hab)
    · intro b
      exact ⟨',', enc b, rfl, by decide⟩
  intro as bs r s heq
  cases as with
  | nil =>
    cases bs with
    | nil => exact ⟨rfl, by simpa [writeList] using heq⟩
    | cons b bs =>
      obtain ⟨d, rest, hd, hne⟩ := hopen b
      simp only [writeList, hd, List.cons_append, List.cons.injEq, List.nil_append,
        true_and] at heq
      exact absurd heq.1.symm hne
  | cons a as =>
    cases bs with
    | nil =>
      obtain ⟨d, rest, hd, hne⟩ := hopen a
      simp only [writeList, hd, List.cons_append, List.cons.injEq, List.nil_append,
        true_and] at heq
      exact absurd heq.1 hne
    | cons b bs =>
      simp only [writeList, List.cons_append, List.append_assoc, List.cons.injEq, true_and] at heq
      obtain ⟨rfl, hrest⟩ := h a b _ _ heq
      obtain ⟨rfl, hr⟩ := htail as bs r s hrest
      exact ⟨rfl, hr⟩

/-! ### Text up to a terminator -/

/-- A writer whose output never contains `c` is self-delimiting once `c` follows it. -/
theorem delimited_until {enc : α → List Char} {c : Char} (hinj : Function.Injective enc)
    (hc : ∀ a, c ∉ enc a) : Delimited fun a => enc a ++ [c] := by
  have hcut : ∀ (x y r s : List Char), c ∉ x → c ∉ y → x ++ c :: r = y ++ c :: s →
      x = y ∧ r = s := by
    intro x
    induction x with
    | nil =>
      intro y r s _ hy h
      cases y with
      | nil => exact ⟨rfl, by simpa using h⟩
      | cons d y =>
        simp only [List.nil_append, List.cons_append, List.cons.injEq] at h
        exact absurd (h.1 ▸ List.mem_cons_self) hy
    | cons d x ih =>
      intro y r s hx hy h
      cases y with
      | nil =>
        simp only [List.nil_append, List.cons_append, List.cons.injEq] at h
        exact absurd (h.1 ▸ List.mem_cons_self) hx
      | cons e y =>
        simp only [List.cons_append, List.cons.injEq] at h
        obtain ⟨hxy, hrs⟩ := ih y r s (fun hm => hx (List.mem_cons_of_mem d hm))
          (fun hm => hy (List.mem_cons_of_mem e hm)) h.2
        exact ⟨by rw [h.1, hxy], hrs⟩
  intro a b r s h
  simp only [List.append_assoc, List.cons_append, List.nil_append] at h
  obtain ⟨hab, hrs⟩ := hcut (enc a) (enc b) r s (hc a) (hc b) h
  exact ⟨hinj hab, hrs⟩

/-! ### String literals -/

/-- A lower-case hexadecimal digit. -/
def hexDigit (n : ℕ) : Char := if n < 10 then Char.ofNat (48 + n) else Char.ofNat (87 + n)

/-- The value of a lower-case hexadecimal digit. -/
def hexValue (c : Char) : ℕ := if c.toNat < 58 then c.toNat - 48 else c.toNat - 87

theorem hexValue_hexDigit : ∀ n < 16, hexValue (hexDigit n) = n := by decide

/-- One character of a string literal: the short escapes, `\u00xx` for the other control characters,
and everything else as it stands. -/
def escapeChar (c : Char) : List Char :=
  if c = '"' then ['\\', '"']
  else if c = '\\' then ['\\', '\\']
  else if c.toNat = 8 then ['\\', 'b']
  else if c.toNat = 9 then ['\\', 't']
  else if c.toNat = 10 then ['\\', 'n']
  else if c.toNat = 12 then ['\\', 'f']
  else if c.toNat = 13 then ['\\', 'r']
  else if c.toNat < 32 then
    ['\\', 'u', '0', '0', hexDigit (c.toNat / 16), hexDigit (c.toNat % 16)]
  else [c]

/-- The reader of one escaped character. -/
def readChar : List Char → Option (Char × List Char)
  | '\\' :: 'u' :: '0' :: '0' :: h :: l :: r =>
    some (Char.ofNat (16 * hexValue h + hexValue l), r)
  | '\\' :: 'b' :: r => some (Char.ofNat 8, r)
  | '\\' :: 't' :: r => some (Char.ofNat 9, r)
  | '\\' :: 'n' :: r => some (Char.ofNat 10, r)
  | '\\' :: 'f' :: r => some (Char.ofNat 12, r)
  | '\\' :: 'r' :: r => some (Char.ofNat 13, r)
  | '\\' :: c :: r => some (c, r)
  | c :: r => some (c, r)
  | [] => none

theorem char_eq_ofNat {c : Char} {n : ℕ} (h : c.toNat = n) : c = Char.ofNat n := by
  rw [← h, Char.ofNat_toNat]

theorem readChar_escapeChar (c : Char) (r : List Char) :
    readChar (escapeChar c ++ r) = some (c, r) := by
  unfold escapeChar
  split_ifs with h1 h2 h3 h4 h5 h6 h7 h8
  · simp [h1, readChar]
  · simp [h2, readChar]
  · simp [readChar, char_eq_ofNat h3]
  · simp [readChar, char_eq_ofNat h4]
  · simp [readChar, char_eq_ofNat h5]
  · simp [readChar, char_eq_ofNat h6]
  · simp [readChar, char_eq_ofNat h7]
  · have hhi := hexValue_hexDigit (c.toNat / 16) (by omega)
    have hlo := hexValue_hexDigit (c.toNat % 16) (by omega)
    simp only [List.cons_append, List.nil_append, readChar, hhi, hlo, Nat.div_add_mod,
      Char.ofNat_toNat]
  · simp only [List.cons_append, List.nil_append]
    unfold readChar
    split <;> simp_all

theorem delimited_escapeChar : Delimited escapeChar :=
  delimited_of_read readChar readChar_escapeChar

theorem escapeChar_notOpening : NotOpening '"' escapeChar := by
  intro c
  unfold escapeChar
  split_ifs with h1 h2 h3 h4 h5 h6 h7 h8
  all_goals first
    | exact ⟨_, _, rfl, by decide⟩
    | exact ⟨_, _, rfl, h1⟩

/-- A quoted string literal. -/
def writeString (s : String) : List Char := '"' :: writeSeq escapeChar '"' s.toList

theorem delimited_writeString : Delimited writeString := by
  have hseq := delimited_escapeChar.seq escapeChar_notOpening
  intro a b r s h
  simp only [writeString, List.cons_append, List.cons.injEq, true_and] at h
  obtain ⟨hab, hr⟩ := hseq _ _ r s h
  exact ⟨String.toList_injective hab, hr⟩

/-! ### Numbers -/

/-- A decimal number. -/
def writeNat (n : ℕ) : List Char := Nat.toDigits 10 n

theorem writeNat_injective : Function.Injective writeNat := by
  intro m n h
  have hread := congrArg (fun cs => Nat.ofDigitChars 10 cs 0) h
  simpa only [writeNat, Nat.ofDigitChars_ten_toDigits] using hread

theorem isDigit_of_mem_writeNat {n : ℕ} {c : Char} (h : c ∈ writeNat n) : c.isDigit :=
  Nat.isDigit_of_mem_toDigits (by decide) (by decide) h

/-- The last `width` hexadecimal digits of a number, most significant first. -/
def writeHex : ℕ → ℕ → List Char
  | 0, _ => []
  | width + 1, n => writeHex width (n / 16) ++ [hexDigit (n % 16)]

theorem hexDigit_inj : ∀ m < 16, ∀ n < 16, hexDigit m = hexDigit n → m = n := by decide

theorem writeHex_length (width n : ℕ) : (writeHex width n).length = width := by
  induction width generalizing n with
  | zero => rfl
  | succ width ih => simp [writeHex, ih]

/-- A fixed width of digits determines every number that fits it. -/
theorem writeHex_inj {width m n : ℕ} (hm : m < 16 ^ width) (hn : n < 16 ^ width)
    (h : writeHex width m = writeHex width n) : m = n := by
  induction width generalizing m n with
  | zero =>
    simp only [pow_zero, Nat.lt_one_iff] at hm hn
    rw [hm, hn]
  | succ width ih =>
    rw [writeHex, writeHex] at h
    obtain ⟨hinit, hlast⟩ := List.append_inj h (by rw [writeHex_length, writeHex_length])
    have hdiv : m / 16 = n / 16 := by
      apply ih _ _ hinit
      · exact Nat.div_lt_of_lt_mul (by rwa [Nat.pow_succ, Nat.mul_comm] at hm)
      · exact Nat.div_lt_of_lt_mul (by rwa [Nat.pow_succ, Nat.mul_comm] at hn)
    have hmod : m % 16 = n % 16 := by
      apply hexDigit_inj _ (Nat.mod_lt _ (by decide)) _ (Nat.mod_lt _ (by decide))
      simpa using hlast
    rw [← Nat.div_add_mod m 16, ← Nat.div_add_mod n 16, hdiv, hmod]

end TextCode
