import GithubCatalog.Rows

/-!
# Text the catalog writes and reads

The hyphenated form of a `uuid`, and the three `str` operations of the importer and the watches:
`trim`, `split(',')` and the byte length `len`.
-/

namespace GithubCatalog

open TextCode

/-- `Uuid::to_string`: 32 lower-case hexadecimal digits in groups of 8, 4, 4, 4 and 12. -/
def uuidText (u : Uuid) : String :=
  let digits := writeHex 32 u.toNat
  String.ofList (digits.take 8 ++ '-' :: ((digits.drop 8).take 4 ++ '-' ::
    ((digits.drop 12).take 4 ++ '-' :: ((digits.drop 16).take 4 ++ '-' :: digits.drop 20))))

/-- The Unicode `White_Space` property, which `str::trim` removes. -/
def isWhiteSpace (c : Char) : Bool :=
  let n := c.toNat
  (decide (9 ≤ n) && decide (n ≤ 13)) || n == 32 || n == 0x85 || n == 0xA0 || n == 0x1680 ||
    (decide (0x2000 ≤ n) && decide (n ≤ 0x200A)) || n == 0x2028 || n == 0x2029 || n == 0x202F ||
    n == 0x205F || n == 0x3000

/-- `str::trim`. -/
def trimText (text : String) : String :=
  String.ofList (((text.toList.dropWhile isWhiteSpace).reverse.dropWhile isWhiteSpace).reverse)

/-- `str::split`, on a character. -/
def splitText (sep : Char) (text : String) : List String :=
  let pieces := text.toList.foldr (fun c acc =>
    if c = sep then [] :: acc
    else match acc with
      | [] => [[c]]
      | piece :: rest => (c :: piece) :: rest) [[]]
  pieces.map String.ofList

/-- `str::split_once`, on a character. -/
def splitOnce (sep : Char) (text : String) : Option (String × String) :=
  match text.toList.dropWhile (· ≠ sep) with
  | [] => none
  | _ :: rest => some (String.ofList (text.toList.takeWhile (· ≠ sep)), String.ofList rest)

/-- The hyphenated text of an identifier determines it. -/
theorem uuidText_injective : Function.Injective uuidText := by
  intro u v h
  have hlist := congrArg String.toList h
  simp only [uuidText, String.toList_ofList] at hlist
  have hlen := fun n => writeHex_length 32 n
  obtain ⟨h1, hrest⟩ := List.append_inj hlist (by simp [hlen])
  obtain ⟨h2, hrest⟩ := List.append_inj (List.cons.inj hrest).2 (by simp [hlen])
  obtain ⟨h3, hrest⟩ := List.append_inj (List.cons.inj hrest).2 (by simp [hlen])
  obtain ⟨h4, hrest⟩ := List.append_inj (List.cons.inj hrest).2 (by simp [hlen])
  have h5 := (List.cons.inj hrest).2
  have hdrop16 : (writeHex 32 u.toNat).drop 16 = (writeHex 32 v.toNat).drop 16 := by
    rw [← List.take_append_drop 4 ((writeHex 32 u.toNat).drop 16),
      ← List.take_append_drop 4 ((writeHex 32 v.toNat).drop 16), h4]
    simpa using h5
  have hdrop12 : (writeHex 32 u.toNat).drop 12 = (writeHex 32 v.toNat).drop 12 := by
    rw [← List.take_append_drop 4 ((writeHex 32 u.toNat).drop 12),
      ← List.take_append_drop 4 ((writeHex 32 v.toNat).drop 12), h3]
    simpa using hdrop16
  have hdrop8 : (writeHex 32 u.toNat).drop 8 = (writeHex 32 v.toNat).drop 8 := by
    rw [← List.take_append_drop 4 ((writeHex 32 u.toNat).drop 8),
      ← List.take_append_drop 4 ((writeHex 32 v.toNat).drop 8), h2]
    simpa using hdrop12
  have hdigits : writeHex 32 u.toNat = writeHex 32 v.toNat := by
    rw [← List.take_append_drop 8 (writeHex 32 u.toNat),
      ← List.take_append_drop 8 (writeHex 32 v.toNat), h1, hdrop8]
  have hbound : ∀ w : Uuid, w.toNat < 16 ^ 32 := by
    intro w
    calc w.toNat < 2 ^ 128 := w.isLt
      _ = 16 ^ 32 := by norm_num
  exact BitVec.eq_of_toNat_eq (writeHex_inj (hbound u) (hbound v) hdigits)

example : uuidText 0x0123456789abcdef0123456789abcdef = "01234567-89ab-cdef-0123-456789abcdef" := by
  decide

example : splitText ',' "repo,,user:read" = ["repo", "", "user:read"] := by decide

end GithubCatalog
