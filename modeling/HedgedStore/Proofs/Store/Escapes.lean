import HedgedStore.Store.Request
import HedgedStore.Text.Hexadecimal
import Mathlib.Tactic.IntervalCases

/-! Bytes written as a percent sign and two hexadecimal digits. What a request's path shows of a key
is read back as that key; a text in which escapes stand unencoded is read as another one. -/
namespace HedgedStore

/-- What a text stands for: an escape for its byte, every other character for its own bytes. -/
def percentDecode : List Char → Bytes
  | '%' :: high :: low :: rest =>
    match Text.hexValue? [high, low] with
    | some value => .ofNat value :: percentDecode rest
    | none => String.utf8EncodeChar '%' ++ percentDecode (high :: low :: rest)
  | c :: rest => String.utf8EncodeChar c ++ percentDecode rest
  | [] => []

/-- Somewhere a percent sign stands before two hexadecimal digits. -/
def HasEscape (text : List Char) : Prop :=
  ∃ high low behind, '%' :: high :: low :: behind <:+ text ∧ (Text.hexValue? [high, low]).isSome

theorem hasEscape_cons {c : Char} {text : List Char} :
    HasEscape (c :: text) ↔
      (∃ high low behind, c = '%' ∧ text = high :: low :: behind ∧
        (Text.hexValue? [high, low]).isSome) ∨ HasEscape text := by
  simp only [HasEscape, List.suffix_cons_iff, List.cons.injEq]
  constructor
  · rintro ⟨high, low, behind, ⟨rfl, rfl⟩ | suffix, hex⟩
    · exact .inl ⟨high, low, behind, rfl, rfl, hex⟩
    · exact .inr ⟨high, low, behind, suffix, hex⟩
  · rintro (⟨high, low, behind, rfl, rfl, hex⟩ | ⟨high, low, behind, suffix, hex⟩)
    · exact ⟨high, low, behind, .inl ⟨rfl, rfl⟩, hex⟩
    · exact ⟨high, low, behind, .inr suffix, hex⟩

theorem percentDecode_cons {c : Char} (other : c ≠ '%') (rest : List Char) :
    percentDecode (c :: rest) = String.utf8EncodeChar c ++ percentDecode rest := by
  rw [percentDecode]
  rintro _ _ _ rfl
  exact (other rfl).elim

theorem percentDecode_of_clean {text : List Char} (clean : ¬ HasEscape text) :
    percentDecode text = text.flatMap String.utf8EncodeChar := by
  fun_induction percentDecode text with
  | case1 high low rest value hex =>
    exact absurd (hasEscape_cons.mpr (.inl ⟨high, low, rest, rfl, rfl, by simp [hex]⟩)) clean
  | case2 high low rest hex ih =>
    rw [ih fun escape => clean (hasEscape_cons.mpr (.inr escape))]
    rfl
  | case3 c rest _ ih =>
    rw [ih fun escape => clean (hasEscape_cons.mpr (.inr escape))]
    rfl
  | case4 => rfl

theorem length_percentDecode (text : List Char) :
    (percentDecode text).length ≤ (text.flatMap String.utf8EncodeChar).length ∧
      (HasEscape text →
        (percentDecode text).length < (text.flatMap String.utf8EncodeChar).length) := by
  have written (c : Char) : 1 ≤ (String.utf8EncodeChar c).length := by
    rw [String.length_utf8EncodeChar]
    exact c.utf8Size_pos
  fun_induction percentDecode text with
  | case1 high low rest value hex ih =>
    -- one byte stands for the three characters of an escape
    have := written '%'
    have := written high
    have := written low
    simp only [List.flatMap_cons, List.length_append, List.length_cons]
    exact ⟨by omega, fun _ => by omega⟩
  | case2 high low rest hex ih =>
    rw [List.flatMap_cons, List.length_append, List.length_append]
    refine ⟨Nat.add_le_add_left ih.1 _, fun escape => Nat.add_lt_add_left (ih.2 ?_) _⟩
    obtain ⟨_, _, _, -, ⟨⟩, found⟩ | escape := hasEscape_cons.mp escape
    · simp [hex] at found
    · exact escape
  | case3 c rest other ih =>
    rw [List.flatMap_cons, List.length_append, List.length_append]
    refine ⟨Nat.add_le_add_left ih.1 _, fun escape => Nat.add_lt_add_left (ih.2 ?_) _⟩
    obtain ⟨_, _, _, rfl, rfl, -⟩ | escape := hasEscape_cons.mp escape
    · exact (other _ _ _ rfl rfl).elim
    · exact escape
  | case4 => exact ⟨le_rfl, fun ⟨_, _, _, suffix, _⟩ => by simp at suffix⟩

/-- A text stands for itself just where it holds no escape. -/
theorem percentDecode_eq_iff {text : List Char} :
    percentDecode text = text.flatMap String.utf8EncodeChar ↔ ¬ HasEscape text := by
  refine ⟨fun same escape => ?_, percentDecode_of_clean⟩
  have shorter := (length_percentDecode text).2 escape
  rw [same] at shorter
  exact Nat.lt_irrefl _ shorter

theorem bytes_eq (s : String) : s.toUTF8.data.toList = s.toList.flatMap String.utf8EncodeChar := by
  have bytes : s.toList.utf8Encode.data.toList = s.toUTF8.data.toList := by
    rw [String.utf8Encode_toList]
    rfl
  rw [← bytes, List.utf8Encode, List.data_toByteArray]

/-! What an encoder writes. -/

theorem hexValue?_digits : ∀ high < 16, ∀ low < 16,
    Text.hexValue? [(Nat.digitChar high).toUpper, (Nat.digitChar low).toUpper] =
      some (16 * high + low) := by
  decide

/-- What stands for itself in a path is one byte, and no percent sign. -/
theorem plain_byte : ∀ n < 256, (Request.isPlainByte (.ofNat n) || UInt8.ofNat n == 0x2F) = true →
    Char.ofNat n ≠ '%' ∧ String.utf8EncodeChar (Char.ofNat n) = [.ofNat n] := by
  decide +kernel

namespace Request

/-- A path shows a key so that it can be read back. -/
theorem percentDecode_percentEncode (s : String) :
    percentDecode (percentEncode (· == 0x2F) s).toList = s.toUTF8.data.toList := by
  rw [percentEncode, String.toList_ofList]
  induction s.toUTF8.data.toList with
  | nil => rfl
  | cons b bytes ih =>
    have value : UInt8.ofNat b.toNat = b := UInt8.ofNat_toNat
    have bound : b.toNat < 256 := b.toNat_lt
    rw [List.flatMap_cons]
    split
    · rename_i plain
      have ⟨other, byte⟩ := plain_byte b.toNat bound (by rwa [value])
      rw [List.singleton_append, percentDecode_cons other, byte, value, ih]
      rfl
    · rename_i escaped
      have hex := hexValue?_digits (b.toNat / 16) (by omega) (b.toNat % 16) (by omega)
      have whole : 16 * (b.toNat / 16) + b.toNat % 16 = b.toNat := Nat.div_add_mod _ _
      simp only [List.cons_append, List.nil_append, percentDecode, hex, whole, value, ih]

end Request

end HedgedStore
