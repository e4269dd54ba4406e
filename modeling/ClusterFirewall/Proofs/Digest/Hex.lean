import ClusterFirewall.Digest.Sha256
import Mathlib.Data.List.Basic

/-!
# Digests as texts

The hexadecimal form of a digest says which digest it is, so that two different texts of the same
form are a collision of the digest.

Main statement: `eq_or_collision_of_hex_eq`.
-/

namespace ClusterFirewall.Sha256

/-- Two different messages of one digest. -/
def Collision (message message' : List UInt8) : Prop :=
  message ≠ message' ∧ digest message = digest message'

/-! ## Bytes of texts -/

theorem toList_loop (bytes : ByteArray) (i : Nat) (acc : List UInt8) :
    ByteArray.toList.loop bytes i acc = acc.reverse ++ bytes.data.toList.drop i := by
  -- The loop goes up to the end and collects the bytes backwards.
  fun_induction ByteArray.toList.loop bytes i acc with
  | case1 i acc h ih =>
    have hi : i < bytes.data.toList.length := h
    have hget : bytes.get! i = bytes.data.toList[i] := by
      show bytes.data[i]! = _
      simp [getElem!_pos, h]
    rw [ih, hget, List.reverse_cons, List.append_assoc, List.singleton_append,
      List.getElem_cons_drop]
  | case2 i acc h =>
    have hdrop : bytes.data.toList.drop i = [] := List.drop_eq_nil_of_le (by simpa using h)
    rw [hdrop, List.append_nil]

theorem toList_bytes (bytes : ByteArray) : bytes.toList = bytes.data.toList :=
  toList_loop bytes 0 []

theorem toUTF8_toList_inj {text text' : String} (h : text.toUTF8.toList = text'.toUTF8.toList) :
    text = text' := by
  rw [toList_bytes, toList_bytes] at h
  exact String.toByteArray_inj.1 (ByteArray.ext (Array.toList_inj.1 h))

/-! ## Hexadecimal digits -/

/-- The digits of hexadecimal numbers, with small letters. -/
def hexDigits : List Char := "0123456789abcdef".toList

theorem digitChar_inj : ∀ m n : Fin 16, Nat.digitChar m = Nat.digitChar n → m = n := by decide

theorem digitChar_mem_hexDigits : ∀ n : Fin 16, Nat.digitChar n ∈ hexDigits := by decide

theorem hexPair_inj {b b' : UInt8}
    (hhigh : Nat.digitChar (b.toNat / 16) = Nat.digitChar (b'.toNat / 16))
    (hlow : Nat.digitChar (b.toNat % 16) = Nat.digitChar (b'.toNat % 16)) : b = b' := by
  have hb : b.toNat < 256 := b.toNat_lt
  have hb' : b'.toNat < 256 := b'.toNat_lt
  have hdiv : b.toNat / 16 = b'.toNat / 16 :=
    Fin.mk.inj (digitChar_inj ⟨b.toNat / 16, by omega⟩ ⟨b'.toNat / 16, by omega⟩ hhigh)
  have hmod : b.toNat % 16 = b'.toNat % 16 :=
    Fin.mk.inj (digitChar_inj ⟨b.toNat % 16, by omega⟩ ⟨b'.toNat % 16, by omega⟩ hlow)
  apply UInt8.toNat_inj.1
  omega

theorem hexChars_inj {bytes bytes' : List UInt8} (h : hexChars bytes = hexChars bytes') :
    bytes = bytes' := by
  induction bytes generalizing bytes' with
  | nil =>
    cases bytes' with
    | nil => rfl
    | cons b' bytes' => cases h
  | cons b bytes ih =>
    cases bytes' with
    | nil => cases h
    | cons b' bytes' =>
      simp only [hexChars, List.flatMap_cons, List.cons_append, List.nil_append,
        List.cons.injEq] at h
      obtain ⟨hhigh, hlow, hrest⟩ := h
      rw [hexPair_inj hhigh hlow, ih hrest]

/-- Texts whose digests have the same form are the same, or they are a collision. -/
theorem eq_or_collision_of_hex_eq {text text' : String} (h : hex text = hex text') :
    text = text' ∨ Collision text.toUTF8.toList text'.toUTF8.toList := by
  by_cases heq : text = text'
  · exact .inl heq
  · exact .inr ⟨mt toUTF8_toList_inj heq, hexChars_inj (String.ofList_inj.1 h)⟩

theorem length_hexChars (bytes : List UInt8) : (hexChars bytes).length = 2 * bytes.length := by
  induction bytes with
  | nil => rfl
  | cons b bytes ih =>
    simp only [hexChars, List.flatMap_cons, List.length_append, List.length_cons] at ih ⊢
    simp only [ih, List.length_nil]
    omega

theorem length_hex (text : String) : (hex text).length = 64 := by
  rw [hex, String.length_ofList, length_hexChars]
  rfl

theorem mem_hexDigits_of_mem_hex {text : String} {c : Char} (h : c ∈ (hex text).toList) :
    c ∈ hexDigits := by
  rw [hex, String.toList_ofList] at h
  obtain ⟨b, -, hc⟩ := List.mem_flatMap.1 h
  have hb : b.toNat < 256 := b.toNat_lt
  simp only [List.mem_cons, List.not_mem_nil, or_false] at hc
  rcases hc with rfl | rfl
  · exact digitChar_mem_hexDigits ⟨b.toNat / 16, by omega⟩
  · exact digitChar_mem_hexDigits ⟨b.toNat % 16, by omega⟩

/-- The digest of the standard's first example. -/
example : hex "abc" = "ba7816bf8f01cfea414140de5dae2223b00361a396177a9cb410ff61f20015ad" := by
  decide +kernel

end ClusterFirewall.Sha256
