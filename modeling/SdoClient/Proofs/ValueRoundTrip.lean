/-
Values and their octets. What is written for a value is read back with the same content, and what is read from octets
is written as the octets that were read. A number comes back in the holder of its type, whichever holder it was given
in; text comes back as text exactly if it is valid UTF-8.

Main statement: `round_trip`.
-/
import Mathlib.Tactic
import SdoClient.Value.Encoding

namespace SdoClient

open scoped Power

/-! ## Integers in two's complement -/

namespace LittleEndian

variable {data : List UInt8} {count : Nat} {n : Int}

theorem cast_size (count : Nat) : ((256 ^ count : Nat) : Int) = (256 : Int) ^ count := Int.natCast_pow _ _

theorem cast_decode_lt (data : List UInt8) : (decode data : Int) < (256 : Int) ^ data.length := by
  have h := decode_lt data
  rwa [← Int.ofNat_lt, cast_size] at h

theorem decode_encodeInt (count : Nat) (n : Int) : (decode (encodeInt count n) : Int) = n % (256 : Int) ^ count := by
  have hsize : (0 : Int) < (256 : Int) ^ count := Int.pow_pos (by decide)
  have hlow : 0 ≤ n % (256 : Int) ^ count := Int.emod_nonneg n (by omega)
  rw [encodeInt, decode_encode, Int.natCast_emod, cast_size, Int.toNat_of_nonneg hlow]
  exact Int.emod_emod_of_dvd n (Int.dvd_refl _)

/-- octets spell an integer up to multiples of the range -/
theorem encodeInt_eq (hn : n % (256 : Int) ^ data.length = decode data) : encodeInt data.length n = data := by
  rw [encodeInt, hn, Int.toNat_natCast, encode_decode]

theorem encodeInt_decode (data : List UInt8) : encodeInt data.length (decode data) = data :=
  encodeInt_eq (Int.emod_eq_of_lt (Int.natCast_nonneg _) (cast_decode_lt data))

theorem encodeInt_decodeSigned (data : List UInt8) : encodeInt data.length (decodeSigned data) = data := by
  unfold decodeSigned
  simp only
  split
  · exact encodeInt_decode data
  · apply encodeInt_eq
    rw [cast_size, Int.sub_emod_right]
    exact Int.emod_eq_of_lt (Int.natCast_nonneg _) (cast_decode_lt data)

/-- the upper half of the range spells the negative integers -/
theorem decodeSigned_bounds (data : List UInt8) :
    -((256 : Int) ^ data.length) ≤ 2 * decodeSigned data ∧ 2 * decodeSigned data < (256 : Int) ^ data.length := by
  have hlt := cast_decode_lt data
  unfold decodeSigned
  simp only
  rw [← cast_size] at hlt ⊢
  split <;> omega

theorem decodeSigned_encodeInt (hlow : -((256 : Int) ^ count) ≤ 2 * n) (hhigh : 2 * n < (256 : Int) ^ count) :
    decodeSigned (encodeInt count n) = n := by
  have hread := decode_encodeInt count n
  unfold decodeSigned
  simp only [length_encodeInt]
  rw [← cast_size] at hlow hhigh hread
  generalize 256 ^ count = size at *
  by_cases hn : 0 ≤ n
  · rw [Int.emod_eq_of_lt hn (by omega)] at hread
    rw [if_pos (by omega), hread]
  · have hwrap : n % (size : Int) = n + size := by
      rw [← Int.add_emod_right, Int.emod_eq_of_lt (by omega) (by omega)]
    rw [hwrap] at hread
    rw [if_neg (by omega)]
    omega

end LittleEndian

/-! ## Text -/

theorem toList_loop (bytes : ByteArray) (i : Nat) (r : List UInt8) :
    ByteArray.toList.loop bytes i r = r.reverse ++ bytes.data.toList.drop i := by
  induction i, r using ByteArray.toList.loop.induct bytes with
  | case1 i r hlt ih =>
    have hi : i < bytes.data.toList.length := by simpa using hlt
    have hget : bytes.get! i = bytes.data.toList[i] := by
      rw [Array.getElem_toList]
      exact getElem!_pos bytes.data i (by simpa using hi)
    rw [ByteArray.toList.loop, if_pos hlt, ih, List.drop_eq_getElem_cons hi, hget]
    simp
  | case2 i r hge =>
    have hi : bytes.data.toList.length ≤ i := by simpa using hge
    rw [ByteArray.toList.loop, if_neg hge, List.drop_eq_nil_of_le hi, List.append_nil]

/-- the octets of a text, as the text holds them -/
theorem toList_toUTF8 (s : String) : s.toUTF8.toList = s.toByteArray.data.toList := by
  rw [String.toUTF8_eq_toByteArray, ByteArray.toList, toList_loop]
  rfl

theorem fromUTF8?_toUTF8 (s : String) : String.fromUTF8? ⟨s.toUTF8.toList.toArray⟩ = some s := by
  have hbytes : (⟨s.toUTF8.toList.toArray⟩ : ByteArray) = s.toByteArray := by rw [toList_toUTF8]
  rw [hbytes, String.fromUTF8?, dif_pos s.isValidUTF8]
  rfl

theorem toUTF8_of_fromUTF8? {data : List UInt8} {s : String} (h : String.fromUTF8? ⟨data.toArray⟩ = some s) :
    s.toUTF8.toList = data := by
  unfold String.fromUTF8? at h
  split at h
  · cases h
    rw [toList_toUTF8]
    rfl
  · cases h

/-! ## Contents and holders -/

/-- the bit pattern of a real -/
def Value.bits? : Value → Option (UInt32 ⊕ UInt64)
  | f32 bits => some (.inl bits)
  | f64 bits => some (.inr bits)
  | _ => none

/-- the octets are valid UTF-8 -/
def isUTF8 (data : List UInt8) : Bool := (String.fromUTF8? ⟨data.toArray⟩).isSome

/-- the value is held as values of this type are read: an integer in the narrowest holder of its width, a string as text
exactly if the type is for text and the octets are -/
def DataType.holds (t : DataType) (v : Value) : Bool :=
  match t with
  | untyped => false
  | boolean => (v matches .bool _)
  | signed w =>
    match w with
    | .w8 => (v matches .i8 _)
    | .w16 => (v matches .i16 _)
    | .w24 | .w32 => (v matches .i32 _)
    | .w40 | .w48 | .w56 | .w64 => (v matches .i64 _)
  | unsigned w =>
    match w with
    | .w8 => (v matches .u8 _)
    | .w16 => (v matches .u16 _)
    | .w24 | .w32 => (v matches .u32 _)
    | .w40 | .w48 | .w56 | .w64 => (v matches .u64 _)
  | real32 => (v matches .f32 _)
  | real64 => (v matches .f64 _)
  | visibleString =>
    match v with
    | .text _ => true
    | .octets data => !isUTF8 data
    | _ => false
  | octetString | unicodeString | domain => (v matches .octets _)

/-- the octets of a payload that a type takes in: as many as it is wide, or all of them -/
def DataType.taken (t : DataType) (data : List UInt8) : List UInt8 :=
  match t.byteLength? with
  | some count => data.take count
  | none => data

/-- the octets taken in as they are written again: a boolean tells zero from the rest only -/
def DataType.canonical (t : DataType) (data : List UInt8) : List UInt8 :=
  if t = boolean then (t.taken data).map fun b => if b = 0 then 0 else 1 else t.taken data

namespace Value

/-- the same integer, the same pattern of a real, or the same octets -/
structure SameContent (v w : Value) : Prop where
  integer : v.asInteger? = w.asInteger?
  bits : v.bits? = w.bits?
  octets : v.octets? = w.octets?

variable {v w : Value} {t : DataType} {data : List UInt8}

theorem content_of_integer {n : Int} (hv : v.integer? = some n) :
    v.asInteger? = some n ∧ v.bits? = none ∧ v.octets? = none := by
  cases v <;> simp_all [integer?, asInteger?, bits?, octets?]

theorem content_of_octets (hv : v.octets? = some data) : v.asInteger? = none ∧ v.bits? = none := by
  cases v <;> simp_all [integer?, asInteger?, bits?, octets?]

theorem SameContent.of_integer {n : Int} (hv : v.integer? = some n) (hw : w.integer? = some n) : v.SameContent w := by
  obtain ⟨hvi, hvb, hvo⟩ := content_of_integer hv
  obtain ⟨hwi, hwb, hwo⟩ := content_of_integer hw
  exact ⟨hvi.trans hwi.symm, hvb.trans hwb.symm, hvo.trans hwo.symm⟩

theorem SameContent.of_octets (hv : v.octets? = some data) (hw : w.octets? = some data) : v.SameContent w := by
  obtain ⟨hvi, hvb⟩ := content_of_octets hv
  obtain ⟨hwi, hwb⟩ := content_of_octets hw
  exact ⟨hvi.trans hwi.symm, hvb.trans hwb.symm, hv.trans hw.symm⟩

theorem payload_of_integer {n : Int} (hv : v.integer? = some n) (t : DataType) :
    v.payload t = LittleEndian.encodeInt (t.byteLength?.getD 0) n := by
  cases v <;> first | cases hv; done | cases hv; rfl

theorem payload_of_octets (hv : v.octets? = some data) (t : DataType) : v.payload t = data := by
  cases v <;> first | cases hv; done | cases hv; rfl

theorem octets?_ofVisible (data : List UInt8) : (ofVisible data).octets? = some data := by
  unfold ofVisible
  split
  · rename_i s hs
    exact congrArg some (toUTF8_of_fromUTF8? hs)
  · rfl

theorem holds_ofVisible (data : List UInt8) : DataType.visibleString.holds (ofVisible data) := by
  unfold ofVisible
  split
  · rfl
  · rename_i hs
    simp [DataType.holds, isUTF8, hs]

theorem integer?_ofSigned (width : Width) {n : Int} (hlow : -(2 : Int) ^ (width.bits - 1) ≤ n)
    (hhigh : n ≤ (2 : Int) ^ (width.bits - 1) - 1) : (ofSigned width n).integer? = some n := by
  cases width <;> simp only [Width.bits, Width.octets] at hlow hhigh <;>
    simp only [ofSigned, integer?, Option.some.injEq]
  · exact Int8.toInt_ofInt_of_le (by omega) (by omega)
  · exact Int16.toInt_ofInt_of_le (by omega) (by omega)
  · exact Int32.toInt_ofInt_of_le (by omega) (by omega)
  · exact Int32.toInt_ofInt_of_le (by omega) (by omega)
  all_goals exact Int64.toInt_ofInt_of_le (by omega) (by omega)

theorem integer?_ofUnsigned (width : Width) {n : Nat} (h : (n : Int) ≤ (2 : Int) ^ width.bits - 1) :
    (ofUnsigned width n).integer? = some (n : Int) := by
  cases width <;> simp only [Width.bits, Width.octets] at h <;>
    simp only [ofUnsigned, integer?, Option.some.injEq, Int.natCast_inj]
  · exact UInt8.toNat_ofNat_of_lt' (by simp only [UInt8.size]; omega)
  · exact UInt16.toNat_ofNat_of_lt' (by simp only [UInt16.size]; omega)
  · exact UInt32.toNat_ofNat_of_lt' (by simp only [UInt32.size]; omega)
  · exact UInt32.toNat_ofNat_of_lt' (by simp only [UInt32.size]; omega)
  all_goals exact UInt64.toNat_ofNat_of_lt' (by simp only [UInt64.size]; omega)

theorem holds_ofSigned (width : Width) (n : Int) : (DataType.signed width).holds (ofSigned width n) := by
  cases width <;> rfl

theorem holds_ofUnsigned (width : Width) (n : Nat) : (DataType.unsigned width).holds (ofUnsigned width n) := by
  cases width <;> rfl

theorem eq_bool (hv : DataType.boolean.holds v) : ∃ b, v = bool b := by
  cases v <;> first | (cases hv; done) | exact ⟨_, rfl⟩

theorem eq_f32 (hv : DataType.real32.holds v) : ∃ bits, v = f32 bits := by
  cases v <;> first | (cases hv; done) | exact ⟨_, rfl⟩

theorem eq_f64 (hv : DataType.real64.holds v) : ∃ bits, v = f64 bits := by
  cases v <;> first | (cases hv; done) | exact ⟨_, rfl⟩

theorem eq_octets (hv : DataType.octetString.holds v) : ∃ data, v = octets data := by
  cases v <;> first | (cases hv; done) | exact ⟨_, rfl⟩

theorem eq_ofSigned {width : Width} (hv : (DataType.signed width).holds v) :
    ∃ n, v.integer? = some n ∧ v = ofSigned width n := by
  cases width <;> cases v <;> first | (cases hv; done) | exact ⟨_, rfl, by simp [ofSigned]⟩

theorem eq_ofUnsigned {width : Width} (hv : (DataType.unsigned width).holds v) :
    ∃ n : Nat, v.integer? = some (n : Int) ∧ v = ofUnsigned width n := by
  cases width <;> cases v <;> first | (cases hv; done) | exact ⟨_, rfl, by simp [ofUnsigned]⟩

theorem eq_ofVisible (hv : DataType.visibleString.holds v) : ∃ data, v.octets? = some data ∧ v = ofVisible data := by
  cases v with
  | text s => exact ⟨_, rfl, by rw [ofVisible, fromUTF8?_toUTF8]⟩
  | octets data =>
    have hnone : String.fromUTF8? ⟨data.toArray⟩ = none := by simpa [DataType.holds, isUTF8] using hv
    exact ⟨data, rfl, by rw [ofVisible, hnone]⟩
  | _ => cases hv

/-- a value is determined by its content and its holder -/
theorem SameContent.eq (h : v.SameContent w) (hv : t.holds v) (hw : t.holds w) : v = w := by
  obtain ⟨hinteger, hbits, hoctets⟩ := h
  cases t with
  | untyped => cases hv
  | signed width =>
    obtain ⟨n, hn, rfl⟩ := eq_ofSigned hv
    obtain ⟨m, hm, rfl⟩ := eq_ofSigned hw
    rw [(content_of_integer hn).1, (content_of_integer hm).1] at hinteger
    rw [Option.some.inj hinteger]
  | unsigned width =>
    obtain ⟨n, hn, rfl⟩ := eq_ofUnsigned hv
    obtain ⟨m, hm, rfl⟩ := eq_ofUnsigned hw
    rw [(content_of_integer hn).1, (content_of_integer hm).1] at hinteger
    rw [Int.natCast_inj.1 (Option.some.inj hinteger)]
  | visibleString =>
    obtain ⟨data, hdata, rfl⟩ := eq_ofVisible hv
    obtain ⟨data', hdata', rfl⟩ := eq_ofVisible hw
    rw [hdata, hdata'] at hoctets
    rw [Option.some.inj hoctets]
  | boolean =>
    obtain ⟨a, rfl⟩ := eq_bool hv
    obtain ⟨b, rfl⟩ := eq_bool hw
    cases a <;> cases b <;> first | rfl | cases hinteger
  | real32 =>
    obtain ⟨a, rfl⟩ := eq_f32 hv
    obtain ⟨b, rfl⟩ := eq_f32 hw
    rw [Sum.inl.inj (Option.some.inj hbits)]
  | real64 =>
    obtain ⟨a, rfl⟩ := eq_f64 hv
    obtain ⟨b, rfl⟩ := eq_f64 hw
    rw [Sum.inr.inj (Option.some.inj hbits)]
  | octetString | unicodeString | domain =>
    obtain ⟨a, rfl⟩ := eq_octets hv
    obtain ⟨b, rfl⟩ := eq_octets hw
    rw [Option.some.inj hoctets]

/-! ## Writing and reading -/

theorem leading?_of_length {count : Nat} (h : data.length = count) : leading? count data = some data := by
  rw [leading?, if_pos h.ge, List.take_of_length_le h.le]

theorem leading?_eq_some {count : Nat} {d : List UInt8} (h : leading? count data = some d) :
    d = data.take count ∧ d.length = count := by
  unfold leading? at h
  split at h
  · cases h
    exact ⟨rfl, List.length_take_of_le ‹_›⟩
  · cases h

/-- the range of an integer type, in octets and in bits -/
theorem size_signed (width : Width) : (256 : Int) ^ width.octets = 2 * (2 : Int) ^ (width.bits - 1) := by
  cases width <;> rfl

theorem size_unsigned (width : Width) : (256 : Int) ^ width.octets = (2 : Int) ^ width.bits := by
  cases width <;> rfl

/-- the octets of a value that fits are read as the same content, in the holder of the type -/
theorem decode_payload (h : v.fits t) :
    ∃ w, decode (v.payload t) t = some w ∧ w.fits t ∧ t.holds w ∧ w.SameContent v := by
  cases t with
  | untyped => cases h
  | boolean =>
    obtain ⟨b, rfl⟩ := eq_bool h
    exact ⟨bool b, by cases b <;> rfl, rfl, rfl, rfl, rfl, rfl⟩
  | signed width =>
    obtain ⟨n, hn, hlow, hhigh⟩ := (fits_signed v width).1 h
    have hw : (ofSigned width n).integer? = some n := integer?_ofSigned width hlow hhigh
    have hsize := size_signed width
    refine ⟨ofSigned width n, ?_, (fits_signed _ _).2 ⟨n, hw, hlow, hhigh⟩, holds_ofSigned width n, .of_integer hw hn⟩
    rw [payload_of_integer hn, decode, DataType.byteLength?, Option.getD_some,
      leading?_of_length (LittleEndian.length_encodeInt _ _), Option.map_some,
      LittleEndian.decodeSigned_encodeInt (by omega) (by omega)]
  | unsigned width =>
    obtain ⟨n, hn, hlow, hhigh⟩ := (fits_unsigned v width).1 h
    obtain ⟨n, rfl⟩ := Int.eq_ofNat_of_zero_le hlow
    have hw : (ofUnsigned width n).integer? = some (n : Int) := integer?_ofUnsigned width hhigh
    have hsize := size_unsigned width
    have hread : LittleEndian.decode (LittleEndian.encodeInt width.octets n) = n := by
      have hread := LittleEndian.decode_encodeInt width.octets n
      rw [Int.emod_eq_of_lt hlow (by omega)] at hread
      exact Int.natCast_inj.1 hread
    refine ⟨ofUnsigned width n, ?_, (fits_unsigned _ _).2 ⟨n, hw, hlow, hhigh⟩, holds_ofUnsigned width n,
      .of_integer hw hn⟩
    rw [payload_of_integer hn, decode, DataType.byteLength?, Option.getD_some,
      leading?_of_length (LittleEndian.length_encodeInt _ _), Option.map_some, hread]
  | real32 =>
    obtain ⟨bits, rfl⟩ := eq_f32 h
    have hsize : bits.toNat < 256 ^ 4 := bits.toNat_lt
    refine ⟨f32 bits, ?_, rfl, rfl, rfl, rfl, rfl⟩
    rw [payload, decode, leading?_of_length (LittleEndian.length_encode _ _), Option.map_some,
      LittleEndian.decode_encode, Nat.mod_eq_of_lt hsize, UInt32.ofNat_toNat]
  | real64 =>
    obtain ⟨bits, rfl⟩ := eq_f64 h
    have hsize : bits.toNat < 256 ^ 8 := bits.toNat_lt
    refine ⟨f64 bits, ?_, rfl, rfl, rfl, rfl, rfl⟩
    rw [payload, decode, leading?_of_length (LittleEndian.length_encode _ _), Option.map_some,
      LittleEndian.decode_encode, Nat.mod_eq_of_lt hsize, UInt64.ofNat_toNat]
  | visibleString =>
    obtain ⟨data, hdata⟩ := Option.isSome_iff_exists.1 h
    have hw : (ofVisible data).octets? = some data := octets?_ofVisible data
    refine ⟨ofVisible data, ?_, Option.isSome_iff_exists.2 ⟨data, hw⟩, holds_ofVisible data, .of_octets hw hdata⟩
    rw [payload_of_octets hdata, decode]
  | octetString | unicodeString | domain =>
    obtain ⟨data, hdata⟩ := Option.isSome_iff_exists.1 h
    refine ⟨.octets data, ?_, rfl, rfl, .of_octets rfl hdata⟩
    rw [payload_of_octets hdata, decode]

/-- a type of fixed width reads its width and ignores what follows -/
theorem decode_take {count : Nat} (ht : t.byteLength? = some count) (h : count ≤ data.length) :
    decode (data.take count) t = decode data t := by
  have hleading : leading? count (data.take count) = leading? count data := by
    rw [leading?_of_length (List.length_take_of_le h), leading?, if_pos h]
  cases t with
  | boolean =>
    cases ht
    cases data with
    | nil => rfl
    | cons b rest => rfl
  | signed width | unsigned width =>
    cases ht
    rw [decode, decode, hleading]
  | real32 | real64 =>
    cases ht
    rw [decode, decode, hleading]
  | untyped | visibleString | octetString | unicodeString | domain => cases ht

/-- what is read from octets is written as the octets that were taken in -/
theorem payload_decode (h : decode data t = some w) : w.fits t ∧ t.holds w ∧ w.payload t = t.canonical data := by
  cases t with
  | untyped => cases h
  | boolean =>
    cases data with
    | nil => cases h
    | cons b rest =>
      cases h
      refine ⟨rfl, rfl, ?_⟩
      by_cases hb : b = 0 <;> simp [payload, DataType.canonical, DataType.taken, DataType.byteLength?, hb]
  | signed width =>
    obtain ⟨d, hd, rfl⟩ := Option.map_eq_some_iff.1 h
    obtain ⟨hdata, hlength⟩ := leading?_eq_some hd
    have hbounds := LittleEndian.decodeSigned_bounds d
    rw [hlength, size_signed] at hbounds
    have hlow : -(2 : Int) ^ (width.bits - 1) ≤ LittleEndian.decodeSigned d := by omega
    have hhigh : LittleEndian.decodeSigned d ≤ (2 : Int) ^ (width.bits - 1) - 1 := by omega
    have hw := integer?_ofSigned width hlow hhigh
    refine ⟨(fits_signed _ _).2 ⟨_, hw, hlow, hhigh⟩, holds_ofSigned width _, ?_⟩
    calc (ofSigned width (LittleEndian.decodeSigned d)).payload (.signed width)
        = LittleEndian.encodeInt width.octets (LittleEndian.decodeSigned d) := payload_of_integer hw _
      _ = d := by rw [← hlength, LittleEndian.encodeInt_decodeSigned]
      _ = data.take width.octets := hdata
  | unsigned width =>
    obtain ⟨d, hd, rfl⟩ := Option.map_eq_some_iff.1 h
    obtain ⟨hdata, hlength⟩ := leading?_eq_some hd
    have hlt := LittleEndian.cast_decode_lt d
    rw [hlength, size_unsigned] at hlt
    have hhigh : (LittleEndian.decode d : Int) ≤ (2 : Int) ^ width.bits - 1 := by omega
    have hw := integer?_ofUnsigned width hhigh
    refine ⟨(fits_unsigned _ _).2 ⟨_, hw, Int.natCast_nonneg _, hhigh⟩, holds_ofUnsigned width _, ?_⟩
    calc (ofUnsigned width (LittleEndian.decode d)).payload (.unsigned width)
        = LittleEndian.encodeInt width.octets (LittleEndian.decode d) := payload_of_integer hw _
      _ = d := by rw [← hlength, LittleEndian.encodeInt_decode]
      _ = data.take width.octets := hdata
  | real32 =>
    obtain ⟨d, hd, rfl⟩ := Option.map_eq_some_iff.1 h
    obtain ⟨hdata, hlength⟩ := leading?_eq_some hd
    have hlt := LittleEndian.decode_lt d
    rw [hlength] at hlt
    refine ⟨rfl, rfl, ?_⟩
    calc LittleEndian.encode 4 (UInt32.ofNat (LittleEndian.decode d)).toNat
        = LittleEndian.encode 4 (LittleEndian.decode d) := by rw [UInt32.toNat_ofNat_of_lt' hlt]
      _ = d := by rw [← hlength, LittleEndian.encode_decode]
      _ = data.take 4 := hdata
  | real64 =>
    obtain ⟨d, hd, rfl⟩ := Option.map_eq_some_iff.1 h
    obtain ⟨hdata, hlength⟩ := leading?_eq_some hd
    have hlt := LittleEndian.decode_lt d
    rw [hlength] at hlt
    refine ⟨rfl, rfl, ?_⟩
    calc LittleEndian.encode 8 (UInt64.ofNat (LittleEndian.decode d)).toNat
        = LittleEndian.encode 8 (LittleEndian.decode d) := by rw [UInt64.toNat_ofNat_of_lt' hlt]
      _ = d := by rw [← hlength, LittleEndian.encode_decode]
      _ = data.take 8 := hdata
  | visibleString =>
    cases h
    have hw := octets?_ofVisible data
    exact ⟨Option.isSome_iff_exists.2 ⟨data, hw⟩, holds_ofVisible data, payload_of_octets hw _⟩
  | octetString | unicodeString | domain =>
    cases h
    exact ⟨rfl, rfl, rfl⟩

/-- **Round trip of values.** Exactly the values that fit a type are written. What is written is as long as the type
says and is read again, as a value of the type in the holder of the type, with the integer, the bit pattern or the
octets that were written; a value already in that holder comes back unchanged. Conversely, octets are read unless they
are too few or the type has no values, and what is read is written as the octets that the type takes in; of a boolean,
every octet but zero is written as one. -/
theorem round_trip (v : Value) (t : DataType) (data : List UInt8) :
    (v.encode t).isOk = v.fits t ∧
      (∀ written, v.encode t = .ok written →
        (∀ count, t.byteLength? = some count → written.length = count) ∧
          ∃ w, decode written t = some w ∧ w.fits t ∧ t.holds w ∧ w.SameContent v ∧ (t.holds v → w = v)) ∧
      (decode data t = none ↔ t = .untyped ∨ ∃ count, t.byteLength? = some count ∧ data.length < count) ∧
      ∀ w, decode data t = some w → w.fits t ∧ t.holds w ∧ w.encode t = .ok (t.canonical data) := by
  refine ⟨encode_isOk v t, fun written h => ⟨fun count => length_encode h, ?_⟩, decode_eq_none_iff data t, ?_⟩
  · unfold encode at h
    split at h
    · rename_i hfits
      cases h
      obtain ⟨w, hw, hwfits, hholds, hcontent⟩ := decode_payload hfits
      exact ⟨w, hw, hwfits, hholds, hcontent, hcontent.eq hholds⟩
    · cases h
  · intro w hw
    obtain ⟨hfits, hholds, hpayload⟩ := payload_decode hw
    exact ⟨hfits, hholds, by rw [encode, if_pos hfits, hpayload]⟩

/-- the least integer of three octets, held in 64 bits, comes back in 32 bits; octets past the width are not written -/
theorem round_trip_least :
    let least := i64 (-8388608)
    least.encode (.signed .w24) = .ok [0x00, 0x00, 0x80] ∧
      (∃ w, decode [0x00, 0x00, 0x80] (.signed .w24) = some w ∧ w.SameContent least) ∧
      (i32 (-8388608)).encode (.signed .w24) = .ok [0x00, 0x00, 0x80] := by
  intro least
  obtain ⟨-, hwritten, -, hread⟩ := round_trip least (.signed .w24) [0x00, 0x00, 0x80, 0xff]
  obtain ⟨-, w, hw, -, -, hcontent, -⟩ := hwritten [0x00, 0x00, 0x80] (by decide)
  obtain ⟨-, -, hagain⟩ := hread (i32 (-8388608)) (by decide)
  exact ⟨by decide, ⟨w, hw, hcontent⟩, hagain⟩

end Value

end SdoClient
