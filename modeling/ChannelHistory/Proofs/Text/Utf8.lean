import ChannelHistory.Text.Utf8
import Mathlib.Logic.Function.Basic

namespace ChannelHistory.Text

theorem utf8_injective : Function.Injective utf8 := by
  intro s t h
  have hs : s.toList.utf8Encode = t.toList.utf8Encode := congrArg List.toByteArray h
  rw [String.utf8Encode_toList, String.utf8Encode_toList] at hs
  exact String.toByteArray_inj.1 hs

theorem ofUtf8?_utf8 (s : String) : ofUtf8? (utf8 s) = some s := by
  have hbytes : (⟨(utf8 s).toArray⟩ : ByteArray) = s.toByteArray := by
    rw [← s.utf8Encode_toList, ← List.data_toByteArray]
    rfl
  have hvalid : s.toByteArray.IsValidUTF8 := s.isValidUTF8
  rw [ofUtf8?, hbytes, String.fromUTF8?, dif_pos hvalid]
  rfl

theorem ofUtf8?_eq_some_iff {bs : Bytes} {s : String} :
    ofUtf8? bs = some s ↔ bs = utf8 s := by
  refine ⟨fun h => ?_, fun h => h ▸ ofUtf8?_utf8 s⟩
  unfold ofUtf8? String.fromUTF8? at h
  split at h
  · have hs : s.toByteArray = ⟨bs.toArray⟩ := by
      cases h
      rfl
    rw [← s.utf8Encode_toList] at hs
    have harray := congrArg ByteArray.data hs
    rw [List.utf8Encode, List.data_toByteArray] at harray
    exact (List.toArray_inj harray).symm
  · cases h

theorem toNat_ofNat_ascii {n : Nat} (h : n < 128) : (Char.ofNat n).toNat = n := by
  have hvalid : n.isValidChar := .inl (by omega)
  rw [Char.ofNat, dif_pos hvalid]
  rfl

theorem utf8EncodeChar_ascii {n : Nat} (h : n < 128) :
    String.utf8EncodeChar (Char.ofNat n) = [UInt8.ofNat n] := by
  have hval : (Char.ofNat n).val.toNat = n := toNat_ofNat_ascii h
  have hle : n ≤ 127 := Nat.le_of_lt_succ h
  simp [String.utf8EncodeChar, hval, hle]

end ChannelHistory.Text
