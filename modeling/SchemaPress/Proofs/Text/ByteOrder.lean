import Mathlib.Data.List.Nodup

/-!
# The order of texts

Texts are sorted by their characters, which is the order of their bytes in UTF-8
(`bytesBefore_of_lt`), so different texts, when they are sorted, come strictly in the order of their
bytes (`Text.pairwise_mergeSort`).
-/

namespace SchemaPress

/-- The UTF-8 bytes of `a` are less than those of `b`. -/
def BytesBefore (a b : String) : Prop :=
  a.toUTF8.data.toList < b.toUTF8.data.toList

/-- If `c < d`, the bytes of `c` are less than those of `d`, whatever follows. -/
theorem utf8EncodeChar_append_lt {c d : Char} (h : c < d) (xs ys : List UInt8) :
    String.utf8EncodeChar c ++ xs < String.utf8EncodeChar d ++ ys := by
  have hlt : c.val.toNat < d.val.toNat := h
  have hmax : d.val.toNat ≤ 0x10FFFF := by
    have hvalid := d.valid
    unfold UInt32.isValidChar Nat.isValidChar at hvalid
    omega
  unfold String.utf8EncodeChar
  generalize c.val.toNat = v at hlt
  generalize d.val.toNat = w at hlt hmax
  dsimp only
  -- Both numbers are made of the same digits, and no byte is cut off.
  have hdigits (n : Nat) (hn : n ≤ 0x10FFFF) :
      n / 64 / 64 = n / 4096 ∧ n / 4096 / 64 = n / 262144 ∧ n / 262144 / 8 = 0 := by
    omega
  have hbyte (n : Nat) : (n % 64 + 128) % 2 ^ 8 = n % 64 + 128 := by omega
  have hlead (n : Nat) : (n % 8 + 240) % 2 ^ 8 = n % 8 + 240 := by omega
  have hv := hdigits v (by omega)
  have hw := hdigits w hmax
  split_ifs <;>
    simp only [List.cons_append, List.nil_append, List.cons_lt_cons_iff, UInt8.lt_iff_toNat_lt,
      ← UInt8.toNat_inj, UInt8.toNat_ofNat', hbyte, hlead] <;>
    omega

theorem flatMap_utf8EncodeChar_lt {cs ds : List Char} (h : cs < ds) :
    cs.flatMap String.utf8EncodeChar < ds.flatMap String.utf8EncodeChar := by
  induction h with
  | nil =>
    rw [List.flatMap_cons]
    unfold String.utf8EncodeChar
    dsimp only
    split_ifs <;> exact List.Lex.nil
  | rel h => exact utf8EncodeChar_append_lt h _ _
  | cons _ ih =>
    rw [List.flatMap_cons, List.flatMap_cons]
    exact List.append_left_lt ih

/-- The order of `String` is the order of UTF-8 bytes. -/
theorem bytesBefore_of_lt {a b : String} (h : a < b) : BytesBefore a b := by
  have hbytes (s : String) : s.toUTF8.data.toList = s.toList.flatMap String.utf8EncodeChar := by
    rw [String.toUTF8_eq_toByteArray, ← String.utf8Encode_toList, List.utf8Encode,
      List.data_toByteArray]
  unfold BytesBefore
  rw [hbytes, hbytes]
  exact flatMap_utf8EncodeChar_lt h

/-- **`mergeSort` of distinct texts is strictly increasing.** -/
theorem Text.pairwise_mergeSort {xs : List String} (h : xs.Nodup) :
    (xs.mergeSort fun a b => decide (a ≤ b)).Pairwise (· < ·) := by
  have hle : (xs.mergeSort fun a b => decide (a ≤ b)).Pairwise
      fun a b => decide (a ≤ b) = true := by
    refine List.pairwise_mergeSort ?_ ?_ _
    · intro a b c hab hbc
      exact decide_eq_true (String.le_trans (of_decide_eq_true hab) (of_decide_eq_true hbc))
    · intro a b
      rw [Bool.or_eq_true, decide_eq_true_iff, decide_eq_true_iff]
      exact String.le_total a b
  have hne := (List.mergeSort_perm xs fun a b => decide (a ≤ b)).nodup_iff.2 h
  refine (hle.and hne).imp fun ⟨hab, hne⟩ => ?_
  by_contra hlt
  exact hne (String.le_antisymm (of_decide_eq_true hab) (String.not_lt.1 hlt))

end SchemaPress
