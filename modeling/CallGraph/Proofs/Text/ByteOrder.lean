import Mathlib.Data.List.Nodup
import Mathlib.Data.String.Basic

/-! Texts stand in the same order by their characters and by the bytes these are encoded in. -/
namespace CallGraph

/-- Distinct elements that are sorted by a key of each of them ascend. -/
theorem pairwise_lt_mergeSort {α β : Type} [LinearOrder β] {key : α → β} {le : α → α → Bool}
    {xs : List α} (hle : ∀ x y, le x y ↔ key x ≤ key y) (hkey : Function.Injective key)
    (h : xs.Nodup) : (xs.mergeSort le).Pairwise fun x y => key x < key y := by
  have hsorted : (xs.mergeSort le).Pairwise fun x y => le x y := by
    apply List.pairwise_mergeSort
    · intro x y z hxy hyz
      rw [hle] at hxy hyz ⊢
      exact hxy.trans hyz
    · intro x y
      rw [Bool.or_eq_true, hle, hle]
      exact le_total (key x) (key y)
  have hdistinct : (xs.mergeSort le).Nodup := (List.mergeSort_perm xs le).nodup_iff.mpr h
  refine (hsorted.and hdistinct).imp ?_
  rintro x y ⟨hxy, hne⟩
  exact lt_of_le_of_ne ((hle x y).mp hxy) fun hsame => hne (hkey hsame)

def bytesOf (text : String) : List UInt8 :=
  text.toUTF8.data.toList

theorem toList_utf8Encode (chars : List Char) :
    chars.utf8Encode.data.toList = chars.flatMap String.utf8EncodeChar := by
  simp [List.utf8Encode, List.data_toByteArray]

theorem bytesOf_eq (text : String) : bytesOf text = text.toList.flatMap String.utf8EncodeChar := by
  conv_lhs => rw [← String.ofList_toList (s := text)]
  rw [bytesOf, String.toUTF8, String.toByteArray_ofList, toList_utf8Encode]

/-- Digits to the base 64, the first of which that differ decide. -/
theorem digits_lt {v w : ℕ} (h : v < w) (hw : w < 8 * 262144) :
    v / 262144 % 8 < w / 262144 % 8 ∨ v / 262144 % 8 = w / 262144 % 8 ∧
      (v / 4096 % 64 < w / 4096 % 64 ∨ v / 4096 % 64 = w / 4096 % 64 ∧
        (v / 64 % 64 < w / 64 % 64 ∨ v / 64 % 64 = w / 64 % 64 ∧ v % 64 < w % 64)) := by
  have value (n : ℕ) (hn : n < 8 * 262144) :
      n = 262144 * (n / 262144 % 8) + 4096 * (n / 4096 % 64) + 64 * (n / 64 % 64) + n % 64 := by
    omega
  have hv := value v (by omega)
  have hw := value w hw
  have hdigits (n : ℕ) : n / 4096 % 64 < 64 ∧ n / 64 % 64 < 64 ∧ n % 64 < 64 := by
    omega
  have hvdigits := hdigits v
  have hwdigits := hdigits w
  generalize v / 262144 % 8 = v₃, v / 4096 % 64 = v₂, v / 64 % 64 = v₁, v % 64 = v₀ at *
  generalize w / 262144 % 8 = w₃, w / 4096 % 64 = w₂, w / 64 % 64 = w₁, w % 64 = w₀ at *
  omega

/-- The first bytes in which two characters differ decide which is greater, whatever follows them. -/
theorem utf8EncodeChar_append_lt {c d : Char} (h : c < d) (rest rest' : List UInt8) :
    String.utf8EncodeChar c ++ rest < String.utf8EncodeChar d ++ rest' := by
  have hval : c.val.toNat < d.val.toNat := h
  have hmax : d.val.toNat < 1114112 := by
    have hvalid := d.valid
    simp only [UInt32.isValidChar, Nat.isValidChar] at hvalid
    omega
  have hdigits := digits_lt hval (by omega)
  unfold String.utf8EncodeChar
  generalize c.val.toNat = v at *
  generalize d.val.toNat = w at *
  dsimp only
  -- A longer encoding begins with a greater byte; between equally long ones the digits decide.
  split_ifs <;>
    simp (disch := omega) only [List.cons_append, List.nil_append, List.cons_lt_cons_iff,
      UInt8.lt_iff_toNat_lt, ← UInt8.toNat_inj, UInt8.toNat_ofNat', Nat.reducePow,
      Nat.mod_eq_of_lt] <;>
    omega

theorem utf8EncodeChar_ne_nil (c : Char) : String.utf8EncodeChar c ≠ [] := by
  unfold String.utf8EncodeChar
  dsimp only
  split_ifs <;> simp

theorem flatMap_utf8EncodeChar_lt {chars chars' : List Char} (h : chars < chars') :
    chars.flatMap String.utf8EncodeChar < chars'.flatMap String.utf8EncodeChar := by
  have hlex := List.lex_lt.mpr h
  clear h
  induction hlex with
  | nil =>
    rename_i c rest
    obtain ⟨byte, bytes, hbytes⟩ := List.exists_cons_of_ne_nil (utf8EncodeChar_ne_nil c)
    rw [List.flatMap_cons, hbytes]
    exact List.nil_lt_cons _ _
  | rel hlt => exact utf8EncodeChar_append_lt hlt _ _
  | cons _ ih => exact List.append_left_lt ih

theorem bytesOf_lt {text text' : String} (h : text < text') : bytesOf text < bytesOf text' := by
  rw [bytesOf_eq, bytesOf_eq]
  exact flatMap_utf8EncodeChar_lt (String.lt_iff_toList_lt.mp h)

theorem map_bytesOf_lt {columns columns' : List String} (h : columns < columns') :
    columns.map bytesOf < columns'.map bytesOf := by
  have hlex := List.lex_lt.mpr h
  clear h
  induction hlex with
  | nil => exact List.nil_lt_cons _ _
  | rel hlt => exact List.cons_lt_cons_iff.mpr (.inl (bytesOf_lt hlt))
  | cons _ ih => exact List.cons_lt_cons_iff.mpr (.inr ⟨rfl, ih⟩)

end CallGraph
