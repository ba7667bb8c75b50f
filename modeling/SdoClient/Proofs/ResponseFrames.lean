/-
The grammar of the frames of the server. Ten kinds of responses share one command octet. The specifier in its top three
bits tells the families apart, and the bits below mean other things in each. `Shows` says bit by bit what each response
looks like on the wire; bits that no field is read from are free.

Main statements:
- `parse_eq_ok_iff`: a frame is read as a response exactly if it shows that response;
- `exists_parse_iff`: which octets are read at all;
- `parse_mirrored`: the bits are those that the client sets in the request of the same form;
- `eq_iff_agree`: two frames are read alike exactly if they agree on the bits of their kind;
- `parse_grammar`: all of it together.
-/
import Mathlib.Tactic
import SdoClient.Proofs.RequestFrames

namespace SdoClient

/-! ## Bits and octets of a frame -/

namespace Wire

/-- bit `j` of octet `i` -/
def bit (data : List UInt8) (i j : Nat) : Bool := (data.getD i 0).toNat.testBit j

/-- the `width` bits of octet `i` from bit `low` on, as a number -/
def field (data : List UInt8) (i low width : Nat) : Nat := (data.getD i 0).toNat / 2 ^ low % 2 ^ width

theorem exists_octets {data : List UInt8} (h : data.length = size) :
    ∃ c b1 b2 b3 b4 b5 b6 b7, data = [c, b1, b2, b3, b4, b5, b6, b7] := by
  match data, h with
  | [c, b1, b2, b3, b4, b5, b6, b7], _ => exact ⟨c, b1, b2, b3, b4, b5, b6, b7, rfl⟩

/-- a bit is a field of width one -/
theorem bit_eq (data : List UInt8) (i j : Nat) : bit data i j = decide (field data i j 1 = 1) :=
  Nat.testBit_eq_decide_div_mod_eq

theorem bit_eq_iff {a b : List UInt8} {i j k l : Nat} : bit a i j = bit b k l ↔ field a i j 1 = field b k l 1 := by
  have ha : field a i j 1 < 2 := Nat.mod_lt _ (by decide)
  have hb : field b k l 1 < 2 := Nat.mod_lt _ (by decide)
  rw [bit_eq, bit_eq, decide_eq_decide]
  omega

/-- two fields are equal exactly if they are so bit by bit -/
theorem field_eq_iff {a b : List UInt8} {i low width : Nat} :
    field a i low width = field b i low width ↔
      ∀ j, low ≤ j → j < low + width → bit a i j = bit b i j := by
  constructor
  · intro h j hlow hhigh
    have hbit := congrArg (Nat.testBit · (j - low)) h
    have hin : j - low < width := by omega
    simpa [field, bit, Nat.testBit_mod_two_pow, Nat.testBit_div_two_pow, hin, hlow] using hbit
  · intro h
    refine Nat.eq_of_testBit_eq fun k => ?_
    simp only [field, Nat.testBit_mod_two_pow, Nat.testBit_div_two_pow]
    by_cases hk : k < width
    · have hbit := h (low + k) (by omega) (by omega)
      simpa [hk, bit, Nat.add_comm] using hbit
    · simp [hk]

/-- an octet is its eight bits -/
theorem getD_eq_iff {a b : List UInt8} {i : Nat} :
    a.getD i 0 = b.getD i 0 ↔ ∀ j < 8, bit a i j = bit b i j := by
  have whole (data : List UInt8) : field data i 0 8 = (data.getD i 0).toNat := by
    have hlt := (data.getD i 0).toNat_lt
    simp only [field]
    omega
  have h : field a i 0 8 = field b i 0 8 ↔ ∀ j, 0 ≤ j → j < 0 + 8 → bit a i j = bit b i j := field_eq_iff
  rw [whole, whole, UInt8.toNat_inj] at h
  simpa using h

/-- a field is the two fields that it is divided into -/
theorem field_split {a b : List UInt8} {i low : Nat} (m n : Nat) :
    field a i low (m + n) = field b i low (m + n) ↔
      field a i low m = field b i low m ∧ field a i (low + m) n = field b i (low + m) n := by
  simp only [field_eq_iff]
  constructor
  · intro h
    exact ⟨fun j hlow hhigh => h j hlow (by omega), fun j hlow hhigh => h j (by omega) (by omega)⟩
  · rintro ⟨hfirst, hsecond⟩ j hlow hhigh
    by_cases hj : j < low + m
    · exact hfirst j hlow hj
    · exact hsecond j (by omega) (by omega)

theorem take_tail_eq_iff {a b : List UInt8} (h : a.length = b.length) {n : Nat} (hn : n < a.length) :
    (a.drop 1).take n = (b.drop 1).take n ↔ ∀ i, 1 ≤ i → i ≤ n → a.getD i 0 = b.getD i 0 := by
  constructor
  · intro heq i hi hin
    have hat := congrArg (·.getD (i - 1) 0) heq
    have hlt : i - 1 < n := by omega
    have hi' : i - 1 + 1 = i := by omega
    simpa [List.getD_eq_getElem?_getD, List.getElem?_take, hlt, hi'] using hat
  · intro heq
    refine List.ext_getElem (by simp [h]) fun k hk hk' => ?_
    simp only [List.length_take, List.length_drop] at hk hk'
    have hat := heq (k + 1) (by omega) (by omega)
    have hka : k + 1 < a.length := by omega
    have hkb : k + 1 < b.length := by omega
    simpa [hka, hkb] using hat

end Wire

namespace LittleEndian

theorem decode_inj {a b : List UInt8} (h : a.length = b.length) : decode a = decode b ↔ a = b := by
  refine ⟨fun heq => ?_, congrArg _⟩
  rw [← encode_decode a, ← encode_decode b, h, heq]

end LittleEndian

namespace Wire

theorem number_lt (data : List UInt8) (i count : Nat) : number data i count < 256 ^ count := by
  have hlength : ((data.drop i).take count).length ≤ count := List.length_take_le _ _
  exact (LittleEndian.decode_lt _).trans_le (Nat.pow_le_pow_right (by decide) hlength)

theorem word_iff {data : List UInt8} {i : Nat} {w : UInt16} :
    w.toNat = number data i 2 ↔ w = UInt16.ofNat (number data i 2) := by
  have hlt : number data i 2 < 65536 := number_lt data i 2
  rw [← UInt16.toNat_inj, UInt16.toNat_ofNat', Nat.mod_eq_of_lt hlt]

theorem number_iff {data : List UInt8} {i : Nat} {n : UInt32} :
    n.toNat = number data i 4 ↔ n = UInt32.ofNat (number data i 4) := by
  have hlt : number data i 4 < 4294967296 := number_lt data i 4
  rw [← UInt32.toNat_inj, UInt32.toNat_ofNat', Nat.mod_eq_of_lt hlt]

/-- the number is there only if the flag is set -/
theorem number_if_iff {data : List UInt8} {i : Nat} {set : Bool} {n : Option UInt32} :
    (n.map UInt32.toNat = if set then some (number data i 4) else none) ↔
      n = if set then some (UInt32.ofNat (number data i 4)) else none := by
  cases set <;> cases n <;> simp [number_iff]

end Wire

namespace Response

open Wire

/-! ## What a response looks like -/

/-- the kinds of responses -/
inductive Kind where
  | uploadInitiate | uploadSegment | downloadInitiate | downloadSegment
  | blockUploadInitiate | blockUploadEnd | blockDownloadInitiate | blockDownloadAck | blockDownloadEnd
  | abort
  deriving DecidableEq, Repr

def kind : Response → Kind
  | uploadInitiate .. => .uploadInitiate
  | uploadSegment .. => .uploadSegment
  | downloadInitiate .. => .downloadInitiate
  | downloadSegment .. => .downloadSegment
  | blockUploadInitiate .. => .blockUploadInitiate
  | blockUploadEnd .. => .blockUploadEnd
  | blockDownloadInitiate .. => .blockDownloadInitiate
  | blockDownloadAck .. => .blockDownloadAck
  | blockDownloadEnd => .blockDownloadEnd
  | abort .. => .abort

/-- the specifier, from the top three bits of the command -/
def specifier (data : List UInt8) : Nat := field data 0 5 3

/-- the command announces the kind: by its specifier, and in the block families by the lowest bits also -/
def Kind.Heads (data : List UInt8) : Kind → Prop
  | uploadSegment => specifier data = 0
  | downloadSegment => specifier data = 1
  | uploadInitiate => specifier data = 2
  | downloadInitiate => specifier data = 3
  | abort => specifier data = 4
  | blockDownloadInitiate => specifier data = 5 ∧ field data 0 0 2 = 0
  | blockDownloadEnd => specifier data = 5 ∧ field data 0 0 2 = 1
  | blockDownloadAck => specifier data = 5 ∧ field data 0 0 2 = 2
  | blockUploadInitiate => specifier data = 6 ∧ bit data 0 0 = false
  | blockUploadEnd => specifier data = 6 ∧ bit data 0 0 = true

/-- octets 1 to 3 are the address of an entry -/
def Addresses (data : List UInt8) (mux : Mux) : Prop :=
  mux.index.toNat = number data 1 2 ∧ mux.subIndex = data.getD 3 0

/-- where each field of a response is in the frame -/
def Fields (data : List UInt8) : Response → Prop
  | uploadInitiate mux expedited sizeIndicated unused octets =>
    Addresses data mux ∧ sizeIndicated = bit data 0 0 ∧ expedited = bit data 0 1 ∧ unused = field data 0 2 2 ∧
      octets.toList = data.drop 4
  | uploadSegment toggle len last octets =>
    last = bit data 0 0 ∧ len + field data 0 1 3 = 7 ∧ toggle = bit data 0 4 ∧ octets.toList = data.drop 1
  | downloadInitiate mux => Addresses data mux
  | downloadSegment toggle => toggle = bit data 0 4
  | blockUploadInitiate mux crc total =>
    Addresses data mux ∧ crc = bit data 0 2 ∧
      total.map UInt32.toNat = if bit data 0 1 then some (number data 4 4) else none
  | blockUploadEnd unused crc => unused = field data 0 2 3 ∧ crc.toNat = number data 1 2
  | blockDownloadInitiate mux crc blksize => Addresses data mux ∧ crc = bit data 0 2 ∧ blksize = data.getD 4 0
  | blockDownloadAck ackseq blksize => ackseq = data.getD 1 0 ∧ blksize = data.getD 2 0
  | blockDownloadEnd => True
  | abort mux code => Addresses data mux ∧ code.raw.toNat = number data 4 4

/-- eight octets show a response -/
def Shows (data : List UInt8) (r : Response) : Prop :=
  data.length = size ∧ r.kind.Heads data ∧ r.Fields data

/-- the octets that are read at all: of the specifiers two are not in use, and one code of the block downloads -/
def Accepted (data : List UInt8) : Prop :=
  data.length = size ∧
    (specifier data ≤ 4 ∨ specifier data = 6 ∨ specifier data = 5 ∧ field data 0 0 2 ≠ 3)

theorem addresses_iff {data : List UInt8} {mux : Mux} :
    Addresses data mux ↔ mux = ⟨UInt16.ofNat (number data 1 2), data.getD 3 0⟩ := by
  obtain ⟨index, subIndex⟩ := mux
  rw [Addresses, word_iff, Mux.mk.injEq]

/-! ## Reading -/

theorem specifier_cons (c : UInt8) (rest : List UInt8) : specifier (c :: rest) = c.toNat / 32 := by
  have hlt := c.toNat_lt
  simp only [specifier, field, List.getD_cons_zero]
  omega

theorem code_cons (c : UInt8) (rest : List UInt8) : field (c :: rest) 0 0 2 = c.toNat % 4 := by
  simp [field]

theorem bit_cons (c : UInt8) (rest : List UInt8) (j : Nat) : bit (c :: rest) 0 j = hasFlag c (2 ^ j) :=
  Nat.testBit_eq_decide_div_mod_eq

/-- what is read is shown -/
theorem shows_of_parse {data : List UInt8} {r : Response} (h : parse data = .ok r) : r.Shows data := by
  have hlength := length_of_parse h
  obtain ⟨c, b1, b2, b3, b4, b5, b6, b7, rfl⟩ := exists_octets hlength
  have hbit := bit_cons c [b1, b2, b3, b4, b5, b6, b7]
  have hspecifier := specifier_cons c [b1, b2, b3, b4, b5, b6, b7]
  have hcode := code_cons c [b1, b2, b3, b4, b5, b6, b7]
  simp only [parse] at h
  refine ⟨hlength, ?_⟩
  -- one case for each specifier, from 0 up
  split at h <;> rename_i hc
  case h_1 =>
    cases h
    have hlen : 7 - c.toNat / 2 % 8 + c.toNat / 2 % 8 = 7 := by omega
    exact ⟨hspecifier.trans hc, (hbit 0).symm, hlen, (hbit 4).symm, rfl⟩
  case h_2 =>
    cases h
    exact ⟨hspecifier.trans hc, (hbit 4).symm⟩
  case h_3 =>
    cases h
    exact ⟨hspecifier.trans hc, addresses_iff.2 rfl, (hbit 0).symm, (hbit 1).symm, rfl, rfl⟩
  case h_4 =>
    cases h
    exact ⟨hspecifier.trans hc, addresses_iff.2 rfl⟩
  case h_5 =>
    cases h
    exact ⟨hspecifier.trans hc, addresses_iff.2 rfl, number_iff.2 rfl⟩
  case h_6 =>
    split at h <;> rename_i hsub
    · cases h
      exact ⟨⟨hspecifier.trans hc, hcode.trans hsub⟩, addresses_iff.2 rfl, (hbit 2).symm, rfl⟩
    · cases h
      exact ⟨⟨hspecifier.trans hc, hcode.trans hsub⟩, trivial⟩
    · cases h
      exact ⟨⟨hspecifier.trans hc, hcode.trans hsub⟩, rfl, rfl⟩
    · cases h
  case h_7 =>
    split at h <;> rename_i hends
    · cases h
      exact ⟨⟨hspecifier.trans hc, (hbit 0).trans hends⟩, rfl, word_iff.2 rfl⟩
    · cases h
      have hinitiates : bit [c, b1, b2, b3, b4, b5, b6, b7] 0 0 = false := (hbit 0).trans (by simpa using hends)
      refine ⟨⟨hspecifier.trans hc, hinitiates⟩, addresses_iff.2 rfl, (hbit 2).symm, number_if_iff.2 ?_⟩
      rw [hbit 1]
      rfl
  case h_8 => cases h

/-- what is shown is read -/
theorem parse_of_shows {data : List UInt8} {r : Response} (h : r.Shows data) : parse data = .ok r := by
  obtain ⟨hlength, hheads, hfields⟩ := h
  obtain ⟨c, b1, b2, b3, b4, b5, b6, b7, rfl⟩ := exists_octets hlength
  have hbit := bit_cons c [b1, b2, b3, b4, b5, b6, b7]
  have hspecifier := specifier_cons c [b1, b2, b3, b4, b5, b6, b7]
  have hcode := code_cons c [b1, b2, b3, b4, b5, b6, b7]
  cases r with
  | uploadInitiate mux expedited sizeIndicated unused octets =>
    obtain ⟨hmux, rfl, rfl, rfl, hoctets⟩ := hfields
    obtain rfl := addresses_iff.1 hmux
    obtain rfl : octets = ⟨#[b4, b5, b6, b7], rfl⟩ := Vector.toList_inj.1 hoctets
    have hc : c.toNat / 32 = 2 := hspecifier.symm.trans hheads
    rw [hbit, hbit]
    simp only [parse, hc]
    rfl
  | uploadSegment toggle len last octets =>
    obtain ⟨rfl, hlen, rfl, hoctets⟩ := hfields
    obtain rfl : octets = ⟨#[b1, b2, b3, b4, b5, b6, b7], rfl⟩ := Vector.toList_inj.1 hoctets
    obtain rfl : len = 7 - c.toNat / 2 % 8 := Nat.eq_sub_of_add_eq hlen
    have hc : c.toNat / 32 = 0 := hspecifier.symm.trans hheads
    rw [hbit, hbit]
    simp only [parse, hc]
    rfl
  | downloadInitiate mux =>
    obtain rfl := addresses_iff.1 hfields
    have hc : c.toNat / 32 = 3 := hspecifier.symm.trans hheads
    simp only [parse, hc]
    rfl
  | downloadSegment toggle =>
    obtain rfl : toggle = _ := hfields
    have hc : c.toNat / 32 = 1 := hspecifier.symm.trans hheads
    rw [hbit]
    simp only [parse, hc]
    rfl
  | blockUploadInitiate mux crc total =>
    obtain ⟨hmux, rfl, htotal⟩ := hfields
    obtain rfl := addresses_iff.1 hmux
    obtain rfl := number_if_iff.1 htotal
    have hc : c.toNat / 32 = 6 := hspecifier.symm.trans hheads.1
    have hends : hasFlag c 1 = false := (hbit 0).symm.trans hheads.2
    rw [hbit, hbit]
    simp only [parse, hc, hends]
    rfl
  | blockUploadEnd unused crc =>
    obtain ⟨rfl, hcrc⟩ := hfields
    obtain rfl := word_iff.1 hcrc
    have hc : c.toNat / 32 = 6 := hspecifier.symm.trans hheads.1
    have hends : hasFlag c 1 = true := (hbit 0).symm.trans hheads.2
    simp only [parse, hc, hends]
    rfl
  | blockDownloadInitiate mux crc blksize =>
    obtain ⟨hmux, rfl, rfl⟩ := hfields
    obtain rfl := addresses_iff.1 hmux
    have hc : c.toNat / 32 = 5 := hspecifier.symm.trans hheads.1
    rw [hbit]
    have hsub : c.toNat % 4 = 0 := hcode.symm.trans hheads.2
    simp only [parse, hc, hsub]
    rfl
  | blockDownloadAck ackseq blksize =>
    obtain ⟨rfl, rfl⟩ := hfields
    have hc : c.toNat / 32 = 5 := hspecifier.symm.trans hheads.1
    have hsub : c.toNat % 4 = 2 := hcode.symm.trans hheads.2
    simp only [parse, hc, hsub]
  | blockDownloadEnd =>
    have hc : c.toNat / 32 = 5 := hspecifier.symm.trans hheads.1
    have hsub : c.toNat % 4 = 1 := hcode.symm.trans hheads.2
    simp only [parse, hc, hsub]
  | abort mux code =>
    obtain ⟨hmux, hcode⟩ := hfields
    obtain rfl := addresses_iff.1 hmux
    obtain ⟨raw⟩ := code
    obtain rfl : raw = _ := number_iff.1 hcode
    have hc : c.toNat / 32 = 4 := hspecifier.symm.trans hheads
    simp only [parse, hc]
    rfl

/-- **A frame is read as a response exactly if it shows that response.** -/
theorem parse_eq_ok_iff {data : List UInt8} {r : Response} : parse data = .ok r ↔ r.Shows data :=
  ⟨shows_of_parse, parse_of_shows⟩

theorem Kind.Heads.specifier_accepted {data : List UInt8} {k : Kind} (h : k.Heads data) :
    specifier data ≤ 4 ∨ specifier data = 6 ∨ specifier data = 5 ∧ field data 0 0 2 ≠ 3 := by
  cases k <;> simp only [Heads] at h <;> omega

/-- **Which octets are read.** -/
theorem exists_parse_iff {data : List UInt8} : (∃ r, parse data = .ok r) ↔ Accepted data := by
  constructor
  · rintro ⟨r, h⟩
    obtain ⟨hlength, hheads, -⟩ := shows_of_parse h
    exact ⟨hlength, hheads.specifier_accepted⟩
  · rintro ⟨hlength, haccepted⟩
    obtain ⟨c, b1, b2, b3, b4, b5, b6, b7, rfl⟩ := exists_octets hlength
    rw [specifier_cons, code_cons] at haccepted
    simp only [parse]
    split
    case h_6 hc =>
      rw [hc] at haccepted
      split
      case h_4 =>
        simp only [imp_false] at *
        omega
      all_goals exact ⟨_, rfl⟩
    case h_7 => split <;> exact ⟨_, rfl⟩
    case h_8 =>
      simp only [imp_false] at *
      omega
    all_goals exact ⟨_, rfl⟩

/-! ## The bits of a kind -/

/-- the bits of a frame that count: of the command `width` bits from bit `low` on, and `octets` of the octets behind
it -/
structure Layout where
  low : Nat
  width : Nat
  octets : Nat
  deriving DecidableEq, Repr

namespace Layout

/-- bit `j` of octet `i` counts -/
def Carries (l : Layout) (i j : Nat) : Prop :=
  i = 0 ∧ l.low ≤ j ∧ j < l.low + l.width ∨ 1 ≤ i ∧ i ≤ l.octets ∧ j < 8

/-- two frames agree on all bits that count -/
def Agree (l : Layout) (a b : List UInt8) : Prop :=
  ∀ i j, l.Carries i j → bit a i j = bit b i j

theorem agree_iff {l : Layout} (hl : l.octets ≤ 7) {a b : List UInt8} (ha : a.length = size) (hb : b.length = size) :
    l.Agree a b ↔
      field a 0 l.low l.width = field b 0 l.low l.width ∧ (a.drop 1).take l.octets = (b.drop 1).take l.octets := by
  rw [field_eq_iff, take_tail_eq_iff (ha.trans hb.symm) (by rw [ha]; exact Nat.lt_succ_of_le hl)]
  simp only [getD_eq_iff]
  constructor
  · intro h
    exact ⟨fun j hlow hhigh => h 0 j (.inl ⟨rfl, hlow, hhigh⟩),
      fun i hfirst hlast j hj => h i j (.inr ⟨hfirst, hlast, hj⟩)⟩
  · rintro ⟨hcommand, hoctets⟩ i j (⟨rfl, hlow, hhigh⟩ | ⟨hfirst, hlast, hj⟩)
    · exact hcommand j hlow hhigh
    · exact hoctets i hfirst hlast j hj

end Layout

/-- the bits that a kind carries. A block upload carries its size, in octets 4 to 7, only if that is `sized`. -/
def Kind.layout (sized : Bool) : Kind → Layout
  | uploadInitiate => ⟨0, 4, 7⟩
  | uploadSegment => ⟨0, 5, 7⟩
  | downloadInitiate => ⟨0, 0, 3⟩
  | downloadSegment => ⟨4, 1, 0⟩
  | blockUploadInitiate => ⟨1, 2, if sized then 7 else 3⟩
  | blockUploadEnd => ⟨2, 3, 2⟩
  | blockDownloadInitiate => ⟨2, 1, 4⟩
  | blockDownloadAck => ⟨0, 0, 2⟩
  | blockDownloadEnd => ⟨0, 0, 0⟩
  | abort => ⟨0, 0, 7⟩

theorem Kind.octets_layout_le (sized : Bool) (k : Kind) : (k.layout sized).octets ≤ 7 := by
  cases k <;> cases sized <;> decide

theorem addresses_congr {a b : List UInt8} {mux : Mux} (h : Addresses a mux) :
    Addresses b mux ↔ number a 1 2 = number b 1 2 ∧ a.getD 3 0 = b.getD 3 0 := by
  obtain ⟨hindex, hsub⟩ := h
  rw [Addresses, hindex, hsub]

/-- a frame has the fields of another one exactly if it agrees with it on the bits that count -/
theorem fields_iff_agree {a b : List UInt8} {r : Response} (ha : a.length = size) (hb : b.length = size)
    (h : r.Fields a) : r.Fields b ↔ (r.kind.layout (bit a 0 1)).Agree a b := by
  rw [Layout.agree_iff (Kind.octets_layout_le _ _) ha hb]
  obtain ⟨c, x1, x2, x3, x4, x5, x6, x7, rfl⟩ := exists_octets ha
  obtain ⟨d, y1, y2, y3, y4, y5, y6, y7, rfl⟩ := exists_octets hb
  cases r with
  | uploadInitiate mux expedited sizeIndicated unused octets =>
    obtain ⟨hmux, rfl, rfl, rfl, hoctets⟩ := h
    simp only [Fields, addresses_congr hmux, bit_eq_iff, hoctets, kind, Kind.layout, number]
    rw [field_split 1 3, field_split 1 2]
    simp [LittleEndian.decode_inj, and_assoc]
    tauto
  | uploadSegment toggle len last octets =>
    obtain ⟨rfl, hlen, rfl, hoctets⟩ := h
    have hcount (n : Nat) : len + n = 7 ↔ field [c, x1, x2, x3, x4, x5, x6, x7] 0 1 3 = n := by omega
    simp only [Fields, bit_eq_iff, hoctets, hcount, kind, Kind.layout]
    rw [field_split 1 4, field_split 3 1]
    simp [and_assoc]
  | downloadInitiate mux =>
    simp only [Fields, addresses_congr h, kind, Kind.layout, number]
    simp [LittleEndian.decode_inj, and_assoc, field_eq_iff]
  | downloadSegment toggle =>
    obtain rfl : toggle = _ := h
    simp [Fields, bit_eq_iff, kind, Kind.layout]
  | blockUploadInitiate mux crc total =>
    obtain ⟨hmux, rfl, htotal⟩ := h
    simp only [Fields, addresses_congr hmux, htotal, kind, Kind.layout, number]
    rw [field_split 1 1]
    simp only [← bit_eq_iff]
    -- the size counts only if both flags are set, and flags that differ tell the frames apart
    cases bit [c, x1, x2, x3, x4, x5, x6, x7] 0 1 <;> cases bit [d, y1, y2, y3, y4, y5, y6, y7] 0 1 <;>
      simp [LittleEndian.decode_inj, and_assoc]
    all_goals tauto
  | blockUploadEnd unused crc =>
    obtain ⟨rfl, hcrc⟩ := h
    simp [Fields, hcrc, number, LittleEndian.decode_inj, kind, Kind.layout]
  | blockDownloadInitiate mux crc blksize =>
    obtain ⟨hmux, rfl, rfl⟩ := h
    simp only [Fields, addresses_congr hmux, bit_eq_iff, kind, Kind.layout, number]
    simp [LittleEndian.decode_inj, and_assoc]
    tauto
  | blockDownloadAck ackseq blksize =>
    obtain ⟨rfl, rfl⟩ := h
    simp [Fields, kind, Kind.layout, field_eq_iff]
  | blockDownloadEnd => simp [Fields, kind, Kind.layout, field_eq_iff]
  | abort mux code =>
    obtain ⟨hmux, hcode⟩ := h
    simp only [Fields, addresses_congr hmux, hcode, kind, Kind.layout, number]
    simp [LittleEndian.decode_inj, and_assoc, field_eq_iff]

/-- **Two frames are read alike exactly if they are of one kind and agree on all bits of it.** -/
theorem eq_iff_agree {a b : List UInt8} {ra rb : Response} (ha : parse a = .ok ra) (hb : parse b = .ok rb) :
    ra = rb ↔ ra.kind = rb.kind ∧ (ra.kind.layout (bit a 0 1)).Agree a b := by
  obtain ⟨hlengtha, -, hfieldsa⟩ := parse_eq_ok_iff.1 ha
  obtain ⟨hlengthb, hheadsb, hfieldsb⟩ := parse_eq_ok_iff.1 hb
  have hagree := fields_iff_agree hlengtha hlengthb hfieldsa
  constructor
  · rintro rfl
    exact ⟨rfl, hagree.1 hfieldsb⟩
  · rintro ⟨hkind, hbits⟩
    -- the second frame shows the first response too, and a frame is read in one way only
    have hshows : ra.Shows b := ⟨hlengthb, hkind ▸ hheadsb, hagree.2 hbits⟩
    exact Except.ok.inj ((parse_eq_ok_iff.2 hshows).symm.trans hb)

/-! ## Requests of the same form -/

end Response

/-- the response of the same form as a request, in which data goes the other way. The two requests that only let the
server go on, and the segments of a block, have none. -/
def Request.mirror? : Request → Option Response
  | initiateUpload mux => some (.downloadInitiate mux)
  | uploadSegment toggle => some (.downloadSegment toggle)
  | initiateDownloadExpedited mux data len => some (.uploadInitiate mux true true (4 - len.toNat) data)
  | initiateDownload mux total => some (.uploadInitiate mux false true 0 (Wire.padded 4 (LittleEndian.encode 4 total.toNat)))
  | downloadSegment toggle data len last => some (.uploadSegment toggle len.toNat last data)
  | blockUploadInitiate mux blksize _ crc => some (.blockDownloadInitiate mux crc blksize)
  | blockUploadStart => none
  | blockUploadAck ackseq blksize => some (.blockDownloadAck ackseq blksize)
  | blockUploadEnd => some .blockDownloadEnd
  | blockDownloadInitiate mux total crc => some (.blockUploadInitiate mux crc (some total))
  | blockDownloadSegment _ _ _ => none
  | blockDownloadEnd unused crc => some (.blockUploadEnd unused.toNat crc)
  | abort mux code => some (.abort mux code)

namespace Response

open Wire

/-- the specifier that the server has for the form of a request: the initiation of a download looks like that of an
upload, and so on, while the block transfers and the abort keep theirs -/
def mirroredSpecifier : Nat → Nat
  | 1 => 2
  | 2 => 3
  | 3 => 1
  | other => other

/-- the frame of a request with the specifier of the server, all flags and octets kept -/
def mirrored : List UInt8 → List UInt8
  | [] => []
  | c :: rest => command (mirroredSpecifier (c.toNat / 32)) (c.toNat % 32) :: rest

theorem mirrored_cons {specifier flags : Nat} (hs : specifier < 8) (hf : flags < 32) (rest : List UInt8) :
    mirrored (command specifier flags :: rest) = command (mirroredSpecifier specifier) flags :: rest := by
  have hc : (command specifier flags).toNat = 32 * specifier + flags := toNat_command (by omega)
  have hspecifier : (command specifier flags).toNat / 32 = specifier := by omega
  have hflags : (command specifier flags).toNat % 32 = flags := by omega
  rw [mirrored, hspecifier, hflags]

/-- **The flags are the client's.** A response has them where the client sets them in the request of the same form. -/
theorem parse_mirrored {q : Request} {r : Response} (hq : q.InRange) (h : q.mirror? = some r) :
    parse (mirrored q.toBytes) = .ok r := by
  cases q with
  | initiateUpload mux =>
    cases h
    obtain ⟨lo, hi, hindex, haddressed⟩ := Request.addressed_octets mux
    simp [Request.toBytes, haddressed, mirrored_cons, mirroredSpecifier, toNat_command, parse, hindex]
  | uploadSegment toggle =>
    cases h
    cases toggle <;> rfl
  | initiateDownloadExpedited mux data len =>
    cases h
    obtain ⟨lo, hi, hindex, haddressed⟩ := Request.addressed_octets mux
    obtain ⟨b4, b5, b6, b7, rfl⟩ := exists_octets_four data
    obtain ⟨hspecifier, hexpedited, hsized, hunused⟩ := read_expedited (by decide : 2 < 8) hq.1 hq.2
    have hsame : mirroredSpecifier 1 = 2 := rfl
    simp only [Request.toBytes, haddressed]
    rw [mirrored_cons (by decide) (by omega), hsame]
    simp [parse, hspecifier, hexpedited, hsized, hunused, hindex]
  | initiateDownload mux total =>
    cases h
    obtain ⟨lo, hi, hindex, haddressed⟩ := Request.addressed_octets mux
    obtain ⟨b4, b5, b6, b7, hbytes, -⟩ := LittleEndian.exists_octets_number total
    simp [Request.toBytes, haddressed, hbytes, mirrored_cons, mirroredSpecifier, toNat_command, parse, hasFlag, hindex,
      padded]
  | downloadSegment toggle data len last =>
    cases h
    obtain ⟨b1, b2, b3, b4, b5, b6, b7, rfl⟩ := exists_octets_seven data
    obtain ⟨hspecifier, htoggle, hlast, hlen⟩ := read_segment toggle last (by decide : 0 < 8) hq
    have hsame : mirroredSpecifier 0 = 0 := rfl
    simp only [Request.toBytes, Request.bare, List.cons_append]
    rw [mirrored_cons (by decide) (segment_flags_lt toggle last len.toNat), hsame]
    simp [parse, hspecifier, htoggle, hlast, hlen]
  | blockUploadInitiate mux blksize pst crc =>
    cases h
    obtain ⟨lo, hi, hindex, haddressed⟩ := Request.addressed_octets mux
    cases crc <;> simp [Request.toBytes, haddressed, mirrored_cons, mirroredSpecifier, toNat_command, parse, hasFlag, flag, hindex]
  | blockUploadStart => cases h
  | blockUploadAck ackseq blksize =>
    cases h
    rfl
  | blockUploadEnd =>
    cases h
    rfl
  | blockDownloadInitiate mux total crc =>
    cases h
    obtain ⟨lo, hi, hindex, haddressed⟩ := Request.addressed_octets mux
    obtain ⟨b4, b5, b6, b7, hbytes, htotal⟩ := LittleEndian.exists_octets_number total
    cases crc <;>
      simp [Request.toBytes, haddressed, hbytes, mirrored_cons, mirroredSpecifier, toNat_command, parse, hasFlag, flag,
        hindex, htotal]
  | blockDownloadSegment => cases h
  | blockDownloadEnd unused crc =>
    cases h
    obtain ⟨lo, hi, hbytes, hsum⟩ := LittleEndian.exists_octets_word crc
    obtain ⟨hspecifier, hends, hunused⟩ := read_end hq
    have hsame : mirroredSpecifier 6 = 6 := rfl
    simp only [Request.toBytes, Request.bare, hbytes, List.cons_append]
    rw [mirrored_cons (by decide) (by omega), hsame]
    simp [parse, hspecifier, hends, hunused, hsum]
  | abort mux code =>
    cases h
    obtain ⟨lo, hi, hindex, haddressed⟩ := Request.addressed_octets mux
    obtain ⟨b4, b5, b6, b7, hbytes, hcode⟩ := LittleEndian.exists_octets_number code.raw
    simp [Request.toBytes, haddressed, hbytes, mirrored_cons, mirroredSpecifier, toNat_command, parse, hindex, hcode]

/-- **The grammar of the responses.** A frame is read exactly if its length and its command are in use, and what is read
is the response that it shows, with the flags where the client has them. Two frames are read alike exactly if they are
of one kind and agree on the bits that it carries. -/
theorem parse_grammar :
    (∀ data, (∃ r, parse data = .ok r) ↔ Accepted data) ∧
      (∀ data r, parse data = .ok r ↔ r.Shows data) ∧
      (∀ (q : Request) (r : Response), q.InRange → q.mirror? = some r → parse (mirrored q.toBytes) = .ok r) ∧
      ∀ a b ra rb, parse a = .ok ra → parse b = .ok rb →
        (ra = rb ↔ ra.kind = rb.kind ∧ (ra.kind.layout (bit a 0 1)).Agree a b) :=
  ⟨fun _ => exists_parse_iff, fun _ _ => parse_eq_ok_iff, fun _ _ => parse_mirrored, fun _ _ _ _ => eq_iff_agree⟩

/-- a block upload that does not tell its size: octets 4 to 7 are not looked at -/
theorem parse_grammar_unsized :
    let a : List UInt8 := [0xC4, 0x00, 0x20, 1, 1, 2, 3, 4]
    let b : List UInt8 := [0xC4, 0x00, 0x20, 1, 0, 0, 0, 0]
    let r := blockUploadInitiate ⟨0x2000, 1⟩ true none
    Accepted a ∧ r.Shows a ∧ parse b = .ok r ∧ (r.kind.layout (bit a 0 1)).Agree a b ∧
      parse (mirrored (Request.blockDownloadInitiate ⟨0x2000, 1⟩ 9 true).toBytes) =
        .ok (.blockUploadInitiate ⟨0x2000, 1⟩ true (some 9)) := by
  intro a b r
  obtain ⟨haccepts, hreads, hmirrors, hagree⟩ := parse_grammar
  have ha : parse a = .ok r := by decide
  have hb : parse b = .ok r := by decide
  exact ⟨(haccepts a).1 ⟨r, ha⟩, (hreads a r).1 ha, hb, ((hagree a b r r ha hb).1 rfl).2, hmirrors _ _ trivial rfl⟩

end Response

end SdoClient
