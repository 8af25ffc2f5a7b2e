import CallGraph.Proofs.Text.ByteOrder

/-! An ASCII character stands in a text just if its byte stands in the encoded text. -/
namespace CallGraph

variable {c : Char}

theorem toUInt8_mem_utf8EncodeChar (hc : c.toNat < 128) {d : Char} :
    c.toUInt8 ∈ String.utf8EncodeChar d ↔ d = c := by
  have hmax : d.val.toNat < 1114112 := by
    have hvalid := d.valid
    simp only [UInt32.isValidChar, Nat.isValidChar] at hvalid
    omega
  have hbyte : c.toUInt8.toNat = c.toNat := by
    rw [Char.toUInt8, UInt32.toNat_toUInt8, Char.toNat_val, Nat.mod_eq_of_lt (by omega)]
  rw [← Char.toNat_inj, ← hbyte]
  change _ ↔ d.val.toNat = _
  unfold String.utf8EncodeChar
  generalize d.val.toNat = v at *
  dsimp only
  -- Every byte of a longer encoding has its high bit set.
  split_ifs <;>
    simp (disch := omega) only [List.mem_cons, List.not_mem_nil, or_false, ← UInt8.toNat_inj,
      UInt8.toNat_ofNat', Nat.reducePow, Nat.mod_eq_of_lt] <;>
    omega

theorem toUInt8_mem_encoded (hc : c.toNat < 128) {text : List Char} :
    c.toUInt8 ∈ text.flatMap String.utf8EncodeChar ↔ c ∈ text := by
  simp [List.mem_flatMap, toUInt8_mem_utf8EncodeChar hc]

theorem toUInt8_mem_bytesOf (hc : c.toNat < 128) {text : String} :
    c.toUInt8 ∈ bytesOf text ↔ c ∈ text.toList := by
  rw [bytesOf_eq, toUInt8_mem_encoded hc]

theorem bytesOf_append (text text' : String) : bytesOf (text ++ text') = bytesOf text ++ bytesOf text' := by
  rw [bytesOf_eq, bytesOf_eq, bytesOf_eq, String.toList_append, List.flatMap_append]

end CallGraph
