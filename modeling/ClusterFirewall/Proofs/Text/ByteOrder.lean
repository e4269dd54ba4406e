import ClusterFirewall.Text.Utf8

/-!
# The order of bytes

Strings are compared character by character. Their bytes compare the same: a character is written
with more bytes only if it is greater, its first byte is then greater too, and in a form of one
length the digits to the base 64 stand with the highest first.

Main statement: `utf8_lt_iff`.
-/

namespace ClusterFirewall.Text

/-- The bytes of a string. -/
def utf8 (s : String) : List UInt8 := s.toUTF8.data.toList

theorem utf8_eq_flatMap (s : String) : utf8 s = s.toList.flatMap String.utf8EncodeChar := by
  have hencode : s.toUTF8 = (s.toList.flatMap String.utf8EncodeChar).toByteArray :=
    String.utf8Encode_toList.symm
  rw [utf8, hencode, List.data_toByteArray]

/-! ## Numbers in bytes -/

/-- The bytes of two numbers compare as the numbers do, whatever follows the bytes. -/
def OrdersBelow (bound : Nat) (bytes : Nat → List UInt8) : Prop :=
  ∀ m n, m < n → n < bound → ∀ xs ys, bytes m ++ xs < bytes n ++ ys

theorem ofNat_cons_lt {a b : Nat} (h : a < b) (hb : b < 256) (xs ys : List UInt8) :
    UInt8.ofNat a :: xs < UInt8.ofNat b :: ys := by
  apply List.Lex.rel
  rw [UInt8.lt_iff_toNat_lt, UInt8.toNat_ofNat', UInt8.toNat_ofNat']
  omega

theorem ordersBelow_single : OrdersBelow 0x80 fun n => [UInt8.ofNat n] :=
  fun _ _ hlt hn xs ys => ofNat_cons_lt hlt (by omega) xs ys

theorem ordersBelow_first (size base : Nat) (h : size + base ≤ 256) :
    OrdersBelow size fun n => [UInt8.ofNat (n % size + base)] := by
  intro m n hlt hn xs ys
  show UInt8.ofNat (m % size + base) :: xs < UInt8.ofNat (n % size + base) :: ys
  rw [Nat.mod_eq_of_lt (Nat.lt_trans hlt hn), Nat.mod_eq_of_lt hn]
  exact ofNat_cons_lt (by omega) (by omega) xs ys

namespace OrdersBelow

variable {bound : Nat} {bytes bytes' : Nat → List UInt8}

/-- One more digit at the end keeps the order. -/
theorem continued (h : OrdersBelow bound bytes) :
    OrdersBelow (64 * bound) fun n => bytes (n / 64) ++ [UInt8.ofNat (n % 64 + 0x80)] := by
  intro m n hlt hn xs ys
  rw [List.append_assoc, List.append_assoc]
  -- Either the higher digits are less, or they are the same and the last one is less.
  obtain hhigh | ⟨hhigh, hlast⟩ : m / 64 < n / 64 ∨ m / 64 = n / 64 ∧ m % 64 < n % 64 := by omega
  · exact h _ _ hhigh (by omega) _ _
  · rw [hhigh]
    exact List.append_left_lt (ofNat_cons_lt (by omega) (by omega) xs ys)

/-- Numbers up to a last one may be written in another way, if this is less than all that comes
after it. -/
theorem upTo (h : OrdersBelow bound bytes) (last : Nat) (h' : OrdersBelow (last + 1) bytes')
    (hcross : ∀ m n, m ≤ last → last < n → n < bound → ∀ xs ys, bytes' m ++ xs < bytes n ++ ys) :
    OrdersBelow bound fun n => if n ≤ last then bytes' n else bytes n := by
  intro m n hlt hn xs ys
  by_cases hm : m ≤ last
  · by_cases hn' : n ≤ last
    · simpa only [if_pos hm, if_pos hn'] using h' m n hlt (by omega) xs ys
    · simpa only [if_pos hm, if_neg hn'] using hcross m n hm (by omega) hn xs ys
  · have hn' : ¬ n ≤ last := by omega
    simpa only [if_neg hm, if_neg hn'] using h m n hlt hn xs ys

end OrdersBelow

/-! ## Characters -/

/-- Whatever follows them, the bytes of the lesser one of two characters are less. -/
theorem utf8EncodeChar_append_lt {c d : Char} (h : c < d) (xs ys : List UInt8) :
    String.utf8EncodeChar c ++ xs < String.utf8EncodeChar d ++ ys := by
  have htwo := (ordersBelow_first 0x20 0xC0 (by omega)).continued
  have hthree := (ordersBelow_first 0x10 0xE0 (by omega)).continued.continued
  have hfour := (ordersBelow_first 0x08 0xF0 (by omega)).continued.continued.continued
  -- The shorter forms are put before the longer ones; across two forms the first byte decides.
  have hfromThree := hfour.upTo 0xFFFF hthree fun m n hm hn hbound xs ys =>
    ofNat_cons_lt (by omega) (by omega) _ _
  have hfromTwo := hfromThree.upTo 0x7FF htwo fun m n hm hn hbound xs ys => by
    split <;> exact ofNat_cons_lt (by omega) (by omega) _ _
  have hall := hfromTwo.upTo 0x7F ordersBelow_single fun m n hm hn hbound xs ys => by
    split
    · exact ofNat_cons_lt (by omega) (by omega) _ _
    · split <;> exact ofNat_cons_lt (by omega) (by omega) _ _
  have hd : d.val.toNat < 0x110000 := by
    have hvalid : d.val.toNat.isValidChar := d.valid
    unfold Nat.isValidChar at hvalid
    omega
  have hlt := hall c.val.toNat d.val.toNat h (by omega) xs ys
  simp only [Nat.div_div_eq_div_mul, Nat.reduceMul] at hlt
  exact hlt

theorem flatMap_utf8EncodeChar_lt {cs ds : List Char} (h : cs < ds) :
    cs.flatMap String.utf8EncodeChar < ds.flatMap String.utf8EncodeChar := by
  induction h with
  | @nil d ds =>
    obtain ⟨b, bs, hb⟩ := List.exists_cons_of_ne_nil (String.utf8EncodeChar_ne_nil (c := d))
    rw [List.flatMap_cons, hb]
    exact List.Lex.nil
  | rel h => exact utf8EncodeChar_append_lt h _ _
  | cons _ ih => exact List.append_left_lt ih

/-- Strings compare as their bytes. -/
theorem utf8_lt_iff {s t : String} : utf8 s < utf8 t ↔ s < t := by
  have hforth : ∀ {s t : String}, s < t → utf8 s < utf8 t := by
    intro s t h
    rw [utf8_eq_flatMap, utf8_eq_flatMap]
    exact flatMap_utf8EncodeChar_lt h
  refine ⟨fun h => ?_, hforth⟩
  -- No other order is possible, as the bytes would be in that order too.
  obtain hlt | rfl | hgt := Std.lt_trichotomy s t
  · exact hlt
  · exact absurd h (List.lt_irrefl _)
  · exact absurd h (List.lt_asymm (hforth hgt))

end ClusterFirewall.Text
