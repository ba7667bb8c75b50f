/-
What the frame of a request still tells. Thirteen kinds of requests share one command octet, whose low bits mean other
things from kind to kind. `ofBytes?` reads a frame as a server would that is not in the middle of a block; within a
block the frames are segments, but for an abort.

Main statements:
- `ofBytes?_toBytes`: with its fields in their ranges, a request is read back as it was;
- `toBytes_lossless`: so no two requests outside a block share a frame, and none within a block.
-/
import Mathlib.Tactic
import SdoClient.Wire.Request
import SdoClient.Wire.Response

namespace SdoClient

/-! ## Octets, words and flags -/

namespace Wire

theorem toNat_command {specifier flags : Nat} (h : 32 * specifier + flags < 256) :
    (command specifier flags).toNat = 32 * specifier + flags := by
  simp only [command, UInt8.toNat_ofNat']
  omega

/-- the number in `count` octets from octet `i` on, least significant octet first -/
def number (data : List UInt8) (i count : Nat) : Nat := LittleEndian.decode ((data.drop i).take count)

theorem flag_eq (weight : Nat) (set : Bool) : flag weight set = weight * set.toNat := by
  cases set <;> simp [flag]

/-- a flag is read off the digit at its weight -/
theorem hasFlag_eq {c : UInt8} {weight : Nat} {set : Bool} (h : c.toNat / weight % 2 = set.toNat) :
    hasFlag c weight = set := by
  cases set <;> simp [hasFlag, h]

/-- the flags of an expedited write of one to four octets, whatever the specifier -/
theorem read_expedited {specifier len : Nat} (hs : specifier < 8) (hlow : 1 ≤ len) (hhigh : len ≤ 4) :
    let c := command specifier (4 * ((4 - len) % 4) + 3)
    c.toNat / 32 = specifier ∧ hasFlag c 2 = true ∧ hasFlag c 1 = true ∧ c.toNat / 4 % 4 = 4 - len := by
  have hc := toNat_command (by omega : 32 * specifier + (4 * ((4 - len) % 4) + 3) < 256)
  simp only [hasFlag, decide_eq_true_eq]
  omega

/-- the flags of a segment stay below the specifier -/
theorem segment_flags_lt (toggle last : Bool) (len : Nat) :
    flag 16 toggle + 2 * ((7 - len) % 8) + flag 1 last < 32 := by
  have ht := toggle.toNat_le
  have hl := last.toNat_le
  rw [flag_eq, flag_eq]
  omega

/-- the flags of a segment of up to seven octets, whatever the specifier -/
theorem read_segment {specifier len : Nat} (toggle last : Bool) (hs : specifier < 8) (hlen : len ≤ 7) :
    let c := command specifier (flag 16 toggle + 2 * ((7 - len) % 8) + flag 1 last)
    c.toNat / 32 = specifier ∧ hasFlag c 16 = toggle ∧ hasFlag c 1 = last ∧ 7 - c.toNat / 2 % 8 = len := by
  have hlt := segment_flags_lt toggle last len
  have ht := toggle.toNat_le
  have hl := last.toNat_le
  have hc := toNat_command (by omega : 32 * specifier + (flag 16 toggle + 2 * ((7 - len) % 8) + flag 1 last) < 256)
  rw [flag_eq, flag_eq] at hc ⊢
  exact ⟨by omega, hasFlag_eq (by omega), hasFlag_eq (by omega), by omega⟩

/-- the flags of the end of a block transfer with up to seven octets of padding -/
theorem read_end {unused : Nat} (h : unused ≤ 7) :
    let c := command 6 (4 * (unused % 8) + 1)
    c.toNat / 32 = 6 ∧ hasFlag c 1 = true ∧ c.toNat / 4 % 8 = unused := by
  have hc := toNat_command (by omega : 32 * 6 + (4 * (unused % 8) + 1) < 256)
  simp only [hasFlag, decide_eq_true_eq]
  omega

/-- a field is read back whole -/
theorem padded_self {count : Nat} (v : Vector UInt8 count) : padded count v.toList = v := by
  rw [← Vector.toList_inj, padded_toList]
  simp

/-- a field of four octets, octet by octet -/
theorem exists_octets_four (v : Vector UInt8 4) : ∃ a b c d, v = ⟨#[a, b, c, d], rfl⟩ := by
  obtain ⟨⟨l⟩, h⟩ := v
  match l, h with
  | [a, b, c, d], _ => exact ⟨a, b, c, d, rfl⟩

/-- a field of seven octets, octet by octet -/
theorem exists_octets_seven (v : Vector UInt8 7) : ∃ a b c d e f g, v = ⟨#[a, b, c, d, e, f, g], rfl⟩ := by
  obtain ⟨⟨l⟩, h⟩ := v
  match l, h with
  | [a, b, c, d, e, f, g], _ => exact ⟨a, b, c, d, e, f, g, rfl⟩

end Wire

namespace LittleEndian

/-- the two octets of a word -/
theorem exists_octets_word (w : UInt16) : ∃ a b, encode 2 w.toNat = [a, b] ∧ UInt16.ofNat (decode [a, b]) = w := by
  have hbound : w.toNat < 256 ^ 2 := w.toNat_lt
  refine ⟨_, _, rfl, ?_⟩
  change UInt16.ofNat (decode (encode 2 w.toNat)) = w
  rw [decode_encode, Nat.mod_eq_of_lt hbound, UInt16.ofNat_toNat]

/-- the four octets of a number -/
theorem exists_octets_number (n : UInt32) :
    ∃ a b c d, encode 4 n.toNat = [a, b, c, d] ∧ UInt32.ofNat (decode [a, b, c, d]) = n := by
  have hbound : n.toNat < 256 ^ 4 := n.toNat_lt
  refine ⟨_, _, _, _, rfl, ?_⟩
  change UInt32.ofNat (decode (encode 4 n.toNat)) = n
  rw [decode_encode, Nat.mod_eq_of_lt hbound, UInt32.ofNat_toNat]

end LittleEndian

/-- an abort frame would be a segment with the number 0 -/
theorem Segment.not_abort {data : List UInt8} {s : Segment} (hs : parse data = .ok s) (hpos : 0 < s.seqno) :
    isAbortFrame data = false := by
  match data, hs with
  | [c, b1, b2, b3, b4, b5, b6, b7], hs =>
    cases hs
    by_contra hab
    have hc : c = Wire.command 4 0 := by simpa [isAbortFrame, Wire.size] using hab
    subst hc
    have hzero : (Wire.command 4 0).toNat % 128 = 0 := by decide
    exact absurd hpos (Nat.not_lt_of_le hzero.le)

namespace Request

/-! ## Reading a request back -/

/-- the fields are in the ranges that the frames have room for -/
def InRange : Request → Prop
  | initiateDownloadExpedited _ _ len => 1 ≤ len.toNat ∧ len.toNat ≤ 4
  | downloadSegment _ _ len _ => len.toNat ≤ 7
  | blockDownloadSegment seqno _ _ => 1 ≤ seqno.toNat ∧ seqno.toNat ≤ 127
  | blockDownloadEnd unused _ => unused.toNat ≤ 7
  | _ => True

/-- a segment of a block, which has its number in place of the command -/
def isBlockSegment : Request → Bool
  | blockDownloadSegment _ _ _ => true
  | _ => false

/-- the requests that may come within a block -/
def withinBlock : Request → Bool
  | blockDownloadSegment _ _ _ | abort _ _ => true
  | _ => false

open Wire in
/-- the request that the octets of a frame spell outside a block -/
def ofBytes? (data : List UInt8) : Option Request :=
  let c := data.getD 0 0
  let mux : Mux := ⟨UInt16.ofNat (number data 1 2), data.getD 3 0⟩
  let total := UInt32.ofNat (number data 4 4)
  match c.toNat / 32 with
  | 2 => some (.initiateUpload mux)
  | 3 => some (.uploadSegment (hasFlag c 16))
  | 1 =>
    if hasFlag c 2 then
      some (.initiateDownloadExpedited mux (padded 4 (data.drop 4)) (UInt8.ofNat (4 - c.toNat / 4 % 4)))
    else some (.initiateDownload mux total)
  | 0 =>
    some (.downloadSegment (hasFlag c 16) (padded 7 (data.drop 1)) (UInt8.ofNat (7 - c.toNat / 2 % 8)) (hasFlag c 1))
  | 5 =>
    match c.toNat % 4 with
    | 0 => some (.blockUploadInitiate mux (data.getD 4 0) (data.getD 5 0) (hasFlag c 4))
    | 3 => some .blockUploadStart
    | 2 => some (.blockUploadAck (data.getD 1 0) (data.getD 2 0))
    | _ => some .blockUploadEnd
  | 6 =>
    if hasFlag c 1 then
      some (.blockDownloadEnd (UInt8.ofNat (c.toNat / 4 % 8)) (UInt16.ofNat (number data 1 2)))
    else some (.blockDownloadInitiate mux total (hasFlag c 4))
  | 4 => some (.abort mux ⟨total⟩)
  | _ => none

open Wire LittleEndian

/-- an addressed frame, octet by octet -/
theorem addressed_octets (mux : Mux) :
    ∃ lo hi, UInt16.ofNat (decode [lo, hi]) = mux.index ∧
      ∀ c tail, addressed c mux tail = c :: lo :: hi :: mux.subIndex :: tail := by
  obtain ⟨lo, hi, hbytes, hword⟩ := exists_octets_word mux.index
  refine ⟨lo, hi, hword, fun c tail => ?_⟩
  rw [addressed, muxBytes, hbytes]
  rfl

/-- **A request is read back as it was.** -/
theorem ofBytes?_toBytes {r : Request} (h : r.InRange) (hr : r.isBlockSegment = false) : ofBytes? r.toBytes = some r := by
  cases r with
  | initiateUpload mux =>
    obtain ⟨lo, hi, hindex, haddressed⟩ := addressed_octets mux
    simp [toBytes, haddressed, ofBytes?, number, toNat_command, hindex]
  | uploadSegment toggle =>
    cases toggle <;> rfl
  | initiateDownloadExpedited mux data len =>
    obtain ⟨lo, hi, hindex, haddressed⟩ := addressed_octets mux
    obtain ⟨hspecifier, hexpedited, -, hunused⟩ := read_expedited (by decide : 1 < 8) h.1 h.2
    have hlen : 4 - (4 - len.toNat) = len.toNat := Nat.sub_sub_self h.2
    simp [toBytes, haddressed, ofBytes?, number, hspecifier, hexpedited, hunused, hlen, hindex, padded_self]
  | initiateDownload mux size =>
    obtain ⟨lo, hi, hindex, haddressed⟩ := addressed_octets mux
    obtain ⟨b4, b5, b6, b7, hbytes, hsize⟩ := exists_octets_number size
    simp [toBytes, haddressed, hbytes, ofBytes?, number, hasFlag, toNat_command, hindex, hsize]
  | downloadSegment toggle data len last =>
    obtain ⟨hspecifier, htoggle, hlast, hlen⟩ := read_segment toggle last (by decide : 0 < 8) h
    simp [toBytes, bare, ofBytes?, hspecifier, htoggle, hlast, hlen, padded_self]
  | blockUploadInitiate mux blksize pst crc =>
    obtain ⟨lo, hi, hindex, haddressed⟩ := addressed_octets mux
    cases crc <;> simp [toBytes, haddressed, ofBytes?, number, hasFlag, flag, toNat_command, hindex]
  | blockUploadStart => rfl
  | blockUploadAck ackseq blksize => simp [toBytes, bare, ofBytes?, toNat_command]
  | blockUploadEnd => rfl
  | blockDownloadInitiate mux size crc =>
    obtain ⟨lo, hi, hindex, haddressed⟩ := addressed_octets mux
    obtain ⟨b4, b5, b6, b7, hbytes, hsize⟩ := exists_octets_number size
    cases crc <;> simp [toBytes, haddressed, hbytes, ofBytes?, number, hasFlag, flag, toNat_command, hindex, hsize]
  | blockDownloadSegment seqno data last => cases hr
  | blockDownloadEnd unused crc =>
    obtain ⟨lo, hi, hbytes, hsum⟩ := exists_octets_word crc
    obtain ⟨hspecifier, hends, hunused⟩ := read_end h
    simp [toBytes, bare, hbytes, ofBytes?, number, hspecifier, hends, hunused, hsum]
  | abort mux code =>
    obtain ⟨lo, hi, hindex, haddressed⟩ := addressed_octets mux
    obtain ⟨b4, b5, b6, b7, hbytes, hcode⟩ := exists_octets_number code.raw
    simp [toBytes, haddressed, hbytes, ofBytes?, number, toNat_command, hindex, hcode]

/-! ## Segments -/

/-- the octet in front of a segment of a block: its number, and whether it is the last -/
theorem toNat_segment_command (seqno : UInt8) (last : Bool) :
    (UInt8.ofNat (flag 128 last + seqno.toNat % 128)).toNat = 128 * last.toNat + seqno.toNat % 128 := by
  have hl := last.toNat_le
  rw [flag_eq, UInt8.toNat_ofNat']
  omega

/-- **A segment is read as it was sent**, but for a number of more than seven bits. -/
theorem parse_segment (seqno : UInt8) (data : Vector UInt8 7) (last : Bool) :
    Segment.parse (blockDownloadSegment seqno data last).toBytes = .ok ⟨seqno.toNat % 128, last, data⟩ := by
  obtain ⟨b1, b2, b3, b4, b5, b6, b7, rfl⟩ := exists_octets_seven data
  have hl := last.toNat_le
  have hc := toNat_segment_command seqno last
  simp only [toBytes, bare, List.cons_append]
  generalize UInt8.ofNat (flag 128 last + seqno.toNat % 128) = c at hc
  have hseqno : c.toNat % 128 = seqno.toNat % 128 := by omega
  have hlast : hasFlag c 128 = last := hasFlag_eq (by omega)
  rw [← hseqno, ← hlast]
  rfl

/-- no segment is an abort -/
theorem not_abort_segment {seqno : UInt8} {data : Vector UInt8 7} {last : Bool}
    (h : (blockDownloadSegment seqno data last).InRange) :
    isAbortFrame (blockDownloadSegment seqno data last).toBytes = false := by
  obtain ⟨hlow, hhigh⟩ := h
  have hpos : 0 < seqno.toNat % 128 := by omega
  exact Segment.not_abort (parse_segment seqno data last) hpos

/-- **An abort is read as it was sent.** -/
theorem parse_abort (mux : Mux) (code : AbortCode) :
    Response.parse (abort mux code).toBytes = .ok (.abort mux code) := by
  obtain ⟨lo, hi, hindex, haddressed⟩ := addressed_octets mux
  obtain ⟨b4, b5, b6, b7, hbytes, hcode⟩ := exists_octets_number code.raw
  simp [toBytes, haddressed, hbytes, Response.parse, toNat_command, hindex, hcode]

theorem isAbortFrame_abort (mux : Mux) (code : AbortCode) : isAbortFrame (abort mux code).toBytes = true := by
  have hlength : (abort mux code).toBytes.length = Wire.size := length_toBytes _
  have hhead : (abort mux code).toBytes.head? = some (command 4 0) := rfl
  simp [isAbortFrame, hlength, hhead]

/-! ## Frames lose nothing -/

/-- within a block, a request is known from its frame -/
theorem eq_of_toBytes_withinBlock {a b : Request} (ha : a.InRange) (hb : b.InRange) (hain : a.withinBlock = true)
    (hbin : b.withinBlock = true) (h : a.toBytes = b.toBytes) : a = b := by
  -- an abort and a segment differ in the first octet; two of a kind are read back alike
  have habort : isAbortFrame a.toBytes = isAbortFrame b.toBytes := congrArg _ h
  cases a with
  | abort mux code =>
    cases b with
    | abort mux' code' =>
      have hread := parse_abort mux code
      rw [h, parse_abort] at hread
      cases hread
      rfl
    | blockDownloadSegment =>
      rw [isAbortFrame_abort, not_abort_segment hb] at habort
      cases habort
    | _ => cases hbin
  | blockDownloadSegment seqno data last =>
    cases b with
    | abort =>
      rw [isAbortFrame_abort, not_abort_segment ha] at habort
      cases habort
    | blockDownloadSegment seqno' data' last' =>
      have hread := parse_segment seqno data last
      rw [h, parse_segment] at hread
      obtain ⟨-, hhigh⟩ := ha
      obtain ⟨-, hhigh'⟩ := hb
      obtain ⟨hseqno, rfl, rfl⟩ := Segment.mk.inj (Except.ok.inj hread)
      rw [UInt8.toNat_inj.1 (by omega : seqno.toNat = seqno'.toNat)]
    | _ => cases hbin
  | _ => cases hain

/-- **Requests lose nothing on the wire.** Of the requests with their fields in range, no two outside a block have the
same frame, and no two within a block, so that no segment is taken for an abort. A segment is read back with its
number, its flag and its octets, and an abort with its address and its code. -/
theorem toBytes_lossless :
    Set.InjOn toBytes {r | r.InRange ∧ r.isBlockSegment = false} ∧
      Set.InjOn toBytes {r | r.InRange ∧ r.withinBlock = true} ∧
      (∀ seqno data last, (blockDownloadSegment seqno data last).InRange →
        isAbortFrame (blockDownloadSegment seqno data last).toBytes = false ∧
          Segment.parse (blockDownloadSegment seqno data last).toBytes = .ok ⟨seqno.toNat, last, data⟩) ∧
      ∀ mux code, Response.parse (abort mux code).toBytes = .ok (.abort mux code) := by
  refine ⟨?_, ?_, ?_, parse_abort⟩
  · rintro a ⟨ha, haout⟩ b ⟨hb, hbout⟩ h
    have hread := ofBytes?_toBytes ha haout
    rw [h, ofBytes?_toBytes hb hbout] at hread
    exact (Option.some.inj hread).symm
  · rintro a ⟨ha, hain⟩ b ⟨hb, hbin⟩ h
    exact eq_of_toBytes_withinBlock ha hb hain hbin h
  · intro seqno data last h
    have hseqno : seqno.toNat % 128 = seqno.toNat := Nat.mod_eq_of_lt (Nat.lt_succ_of_le h.2)
    exact ⟨not_abort_segment h, by rw [parse_segment, hseqno]⟩

/-- a last segment whose frame begins with an octet next to that of an abort -/
theorem toBytes_lossless_last :
    let segment := blockDownloadSegment 1 ⟨#[0, 0x20, 1, 0, 0, 0, 0], rfl⟩ true
    segment.InRange ∧ isAbortFrame segment.toBytes = false ∧
      Segment.parse segment.toBytes = .ok ⟨1, true, ⟨#[0, 0x20, 1, 0, 0, 0, 0], rfl⟩⟩ ∧
      (segment.toBytes ≠ (abort ⟨0x2000, 1⟩ .none).toBytes) := by
  intro segment
  have hrange : segment.InRange := ⟨by decide, by decide⟩
  obtain ⟨-, hwithin, hsegment, -⟩ := toBytes_lossless
  obtain ⟨habort, hread⟩ := hsegment 1 _ true hrange
  have habortRange : (abort ⟨0x2000, 1⟩ .none).InRange := trivial
  exact ⟨hrange, habort, hread, fun h => Request.noConfusion (hwithin ⟨hrange, rfl⟩ ⟨habortRange, rfl⟩ h)⟩

end Request

end SdoClient
