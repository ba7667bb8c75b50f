/-
Payloads in chunks of seven octets, the last one filled up with zeros.

Main statements:
- `padded_chunks`: the chunks of a payload, put together, are the payload and its padding;
- `finalPadding_eq`: the padding reported for a payload is the padding of its last chunk;
- `walk_exact`: the chunks that a write hands out one after another, from any offset on, are the rest of its payload,
  none of them superfluous, and the last one lacks what is reported as padding.
-/
import Mathlib.Tactic
import SdoClient.Transfer

namespace SdoClient

/-- how many segments of seven octets a payload of `size` octets needs; an empty one needs one -/
def segmentCount (size : Nat) : Nat := max 1 ((size + 6) / 7)

theorem lt_segmentCount {size i : Nat} : i < segmentCount size ↔ 7 * i < size ∨ size = 0 ∧ i = 0 := by
  unfold segmentCount
  omega

theorem Wire.toList_padded_of_le {count : Nat} {data : List UInt8} (h : count ≤ data.length) :
    (padded count data).toList = data.take count := by
  rw [padded_toList, Nat.sub_eq_zero_of_le h, List.replicate_zero, List.append_nil]

theorem Wire.toList_padded_of_ge {count : Nat} {data : List UInt8} (h : data.length ≤ count) :
    (padded count data).toList = data ++ List.replicate (count - data.length) 0 := by
  rw [padded_toList, List.take_of_length_le h]

/-- what lies beyond the field does not matter -/
theorem Wire.padded_take (count : Nat) (data : List UInt8) : padded count (data.take count) = padded count data := by
  apply Vector.toList_inj.1
  rw [padded_toList, padded_toList, List.take_take, Nat.min_self, List.length_take]
  congr 2
  omega

/-- **Chunks put together.** The first `k` chunks of a payload are its first `7 * k` octets, filled up with zeros. -/
theorem Wire.padded_chunks (k : Nat) (data : List UInt8) :
    (List.range k).flatMap (fun i => (padded 7 (data.drop (7 * i))).toList) = (padded (7 * k) data).toList := by
  induction k with
  | zero => simp [padded_toList]
  | succ k ih =>
    rw [List.range_succ, List.flatMap_append, ih, List.flatMap_singleton, Nat.mul_succ]
    by_cases h : 7 * k ≤ data.length
    · rw [toList_padded_of_le h, padded_toList, padded_toList, List.take_add, List.length_drop, List.append_assoc]
      congr 3
      omega
    · have hdrop : data.drop (7 * k) = [] := List.drop_of_length_le (by omega)
      have hzeros : (padded 7 ([] : List UInt8)).toList = List.replicate 7 0 := rfl
      rw [hdrop, hzeros, toList_padded_of_ge (by omega), toList_padded_of_ge (by omega), List.append_assoc,
        List.replicate_append_replicate]
      congr 2
      omega

/-- **Final padding.** If chunks of seven octets reach the end of a payload and no chunk is superfluous, the padding
reported for the payload is what they have too much. The empty payload has one chunk. -/
theorem finalPadding_eq {size chunks : Nat} (h : size ≤ 7 * chunks) (hlast : 7 * (chunks - 1) < size ∨ size = 0)
    (hpos : 0 < chunks) (hempty : size = 0 → chunks = 1) : size + finalPadding size = 7 * chunks := by
  unfold finalPadding Wire.segmentSize
  split
  · omega
  · by_cases hs : size = 0
    · subst hs
      have := hempty rfl
      omega
    · omega

theorem finalPadding_le (size : Nat) : finalPadding size ≤ 7 := by
  unfold finalPadding Wire.segmentSize
  split <;> omega

/-- the chunk at an offset within the payload -/
theorem Writing.chunk_padded (w : Writing) : Wire.padded 7 w.chunk.data = Wire.padded 7 (w.payload.drop w.offset) :=
  Wire.padded_take 7 _

theorem Writing.chunk_last {w : Writing} (h : w.Sized) :
    w.chunk.last = decide (w.payload.length ≤ w.offset + 7) := by
  have hsize : w.size = w.payload.length := h
  simp only [chunk, Wire.segmentSize, hsize]
  congr 1
  apply propext
  omega

/-! ## Chunk after chunk -/

/-- chunks from a whole number of chunks on end like the chunks of the whole payload, as long as there is something to
send -/
theorem finalPadding_rest {size offset : Nat} (haligned : offset % 7 = 0) (hin : offset < size ∨ size = 0) :
    finalPadding (size - offset) = finalPadding size := by
  unfold finalPadding Wire.segmentSize
  rcases hin with hin | rfl
  · have hmod : (size - offset) % 7 = size % 7 := by omega
    have hpos : 0 < size - offset ↔ 0 < size := by omega
    simp only [hmod, hpos]
  · rw [Nat.zero_sub]

/-- only an empty payload has seven octets of padding -/
theorem finalPadding_eq_seven {size : Nat} : finalPadding size = 7 ↔ size = 0 := by
  unfold finalPadding Wire.segmentSize
  split <;> omega

namespace Writing

/-- the write behind its next chunk -/
def advanced (w : Writing) : Writing := { w with offset := w.chunk.stop }

theorem offset_advanced_of_lt {w : Writing} (h : w.offset + 7 < w.payload.length) :
    w.advanced.offset = w.offset + 7 := Nat.min_eq_left h.le

theorem offset_advanced_of_le {w : Writing} (h : w.payload.length ≤ w.offset + 7) :
    w.advanced.offset = w.payload.length := Nat.min_eq_right h

/-- the chunks handed out one after another until one ends the payload, and the write behind them -/
def walk (w : Writing) (h : w.Sized) : List Chunk × Writing :=
  if w.chunk.last then ([w.chunk], w.advanced) else (w.chunk :: (w.advanced.walk h).1, (w.advanced.walk h).2)
termination_by w.payload.length - w.offset
decreasing_by
  all_goals
    have hmore : w.offset + 7 < w.payload.length := by simpa [chunk_last h] using ‹¬w.chunk.last = true›
    rw [offset_advanced_of_lt hmore]
    simp only [advanced]
    omega

section walk

variable {w : Writing} {hsize : w.Sized}

theorem walk_of_le (h : w.payload.length ≤ w.offset + 7) : w.walk hsize = ([w.chunk], w.advanced) := by
  rw [walk, if_pos (by simpa [chunk_last hsize] using h)]

theorem walk_of_lt (h : w.offset + 7 < w.payload.length) :
    w.walk hsize = (w.chunk :: (w.advanced.walk hsize).1, (w.advanced.walk hsize).2) := by
  rw [walk, if_neg (by simpa [chunk_last hsize] using h)]

end walk

/-- what holds of a write before its last chunk, and of one that has more to hand out if it holds behind the next chunk,
holds of every write -/
theorem walk_induction {P : (w : Writing) → w.Sized → Prop}
    (hlast : ∀ w hsize, w.payload.length ≤ w.offset + 7 → P w hsize)
    (hmore : ∀ w hsize, w.offset + 7 < w.payload.length → P w.advanced hsize → P w hsize)
    (w : Writing) (hsize : w.Sized) : P w hsize := by
  induction w, hsize using walk.induct with
  | case1 w hsize h => exact hlast w hsize (by simpa [chunk_last hsize] using h)
  | case2 w hsize h ih => exact hmore w hsize (by simpa [chunk_last hsize] using h) ih

/-- a chunk is seven octets long, or what is left -/
theorem length_chunk (w : Writing) : w.chunk.data.length = min 7 (w.payload.length - w.offset) := by
  simp [chunk, Wire.segmentSize]

/-- behind the chunks the whole payload is handed out -/
theorem behind_walk (w : Writing) (hsize : w.Sized) : (w.walk hsize).2 = { w with offset := w.payload.length } := by
  induction w, hsize using walk_induction with
  | hlast w hsize h => rw [walk_of_le h, advanced, ← offset_advanced_of_le h, advanced]
  | hmore w hsize h ih =>
    rw [walk_of_lt h]
    exact ih

theorem length_walk (w : Writing) (hsize : w.Sized) :
    (w.walk hsize).1.length = segmentCount (w.payload.length - w.offset) := by
  induction w, hsize using walk_induction with
  | hlast w hsize h =>
    rw [walk_of_le h, List.length_singleton, segmentCount]
    omega
  | hmore w hsize h ih =>
    rw [offset_advanced_of_lt h, segmentCount] at ih
    rw [walk_of_lt h, List.length_cons, ih, segmentCount]
    simp only [advanced]
    omega

/-- the chunks put together are the rest of the payload -/
theorem octets_walk (w : Writing) (hsize : w.Sized) :
    (w.walk hsize).1.flatMap Chunk.data = w.payload.drop w.offset := by
  induction w, hsize using walk_induction with
  | hlast w hsize h =>
    rw [walk_of_le h, List.flatMap_singleton]
    exact List.take_of_length_le (by rw [List.length_drop, Wire.segmentSize]; omega)
  | hmore w hsize h ih =>
    rw [offset_advanced_of_lt h] at ih
    rw [walk_of_lt h, List.flatMap_cons, ih, advanced, ← List.drop_drop]
    exact List.take_append_drop 7 _

/-- every chunk but the last is full, the last one alone says that the payload ends, and it lacks the reported padding -/
theorem walk_ends (w : Writing) (hsize : w.Sized) :
    ∃ full final, (w.walk hsize).1 = full ++ [final] ∧ (∀ c ∈ full, c.data.length = 7 ∧ c.last = false) ∧
      final.last = true ∧ final.data.length + finalPadding (w.payload.length - w.offset) = 7 := by
  induction w, hsize using walk_induction with
  | hlast w hsize h =>
    refine ⟨[], w.chunk, by rw [walk_of_le h, List.nil_append], fun c hc => absurd hc List.not_mem_nil,
      by simpa [chunk_last hsize] using h, ?_⟩
    rw [length_chunk, finalPadding, Wire.segmentSize]
    split <;> omega
  | hmore w hsize h ih =>
    obtain ⟨full, final, hwalk, hfull, hfinal, hpadding⟩ := ih
    refine ⟨w.chunk :: full, final, by rw [walk_of_lt h, hwalk, List.cons_append], ?_, hfinal, ?_⟩
    · intro c hc
      rcases List.mem_cons.1 hc with rfl | hc
      · refine ⟨?_, by simpa [chunk_last hsize] using h⟩
        rw [length_chunk]
        omega
      · exact hfull c hc
    · have hpadding : final.data.length + finalPadding (w.payload.length - w.advanced.offset) = 7 := hpadding
      have hsame : finalPadding (w.payload.length - w.offset - 7) = finalPadding (w.payload.length - w.offset) :=
        finalPadding_rest rfl (.inl (by omega))
      rwa [← hsame, Nat.sub_sub, ← offset_advanced_of_lt h]

/-- **Chunks agree with the padding.** A write that hands out chunks from any offset on takes as many as the rest of its
payload needs, one for an empty rest, and stops at the end of the payload. The chunks put together are the rest; each
goes out in a field whose other octets are zero. Every chunk but the last is full, and the last one alone says that the
payload ends. It lacks the octets that are reported as the padding of the rest. Behind whole chunks that is the padding
reported for the payload, unless all of a payload is handed out already. The end is told by the size that is kept beside
the payload, so this size must be its length. -/
theorem walk_exact (w : Writing) (hsize : w.Sized) :
    let rest := w.payload.drop w.offset
    let chunks := (w.walk hsize).1
    chunks.length = segmentCount rest.length ∧ (w.walk hsize).2 = { w with offset := w.payload.length } ∧
      chunks.flatMap Chunk.data = rest ∧
      (∀ c ∈ chunks, (Wire.padded 7 c.data).toList = c.data ++ List.replicate (7 - c.data.length) 0) ∧
      ∃ full final, chunks = full ++ [final] ∧ (∀ c ∈ full, c.data.length = 7 ∧ c.last = false) ∧
        final.last = true ∧ finalPadding rest.length = 7 - final.data.length ∧
        (w.offset % 7 = 0 →
          (finalPadding w.payload.length = 7 - final.data.length ↔ w.offset < w.payload.length ∨ w.payload = [])) := by
  intro rest chunks
  have hrest : rest.length = w.payload.length - w.offset := List.length_drop
  obtain ⟨full, final, hwalk, hfull, hfinal, hpadding⟩ := w.walk_ends hsize
  rw [← hrest] at hpadding
  refine ⟨by rw [hrest, length_walk], w.behind_walk hsize, w.octets_walk hsize, ?_, full, final, hwalk, hfull, hfinal,
    by omega, ?_⟩
  · intro c hc
    apply Wire.toList_padded_of_ge
    have hc : c ∈ full ++ [final] := hwalk ▸ hc
    rcases List.mem_append.1 hc with hc | hc
    · exact (hfull c hc).1.le
    · rw [List.mem_singleton.1 hc]
      omega
  · intro haligned
    have hempty : w.payload = [] ↔ w.payload.length = 0 := List.length_eq_zero_iff.symm
    rw [hempty]
    constructor
    · intro hreported
      by_contra hnone
      -- the last chunk is empty, but the padding of a payload leaves some of its last field
      have hdone : rest.length = 0 := by omega
      have hseven := finalPadding_eq_seven.2 hdone
      have hzero := finalPadding_eq_seven.1 (hreported.trans (by omega : 7 - final.data.length = 7))
      exact hnone (.inr hzero)
    · intro hin
      rw [← finalPadding_rest haligned hin, ← hrest]
      omega

/-- a write of twenty octets that went back behind the first segment -/
def rewound : Writing :=
  { target := ⟨0, 5, ⟨0x2001, 0⟩, .domain⟩
    value := .octets (List.replicate 20 0xaa)
    payload := List.replicate 20 0xaa
    offset := 7
    phase := .blockOpening }

theorem walk_exact_rewound :
    ∃ hsize : rewound.Sized, rewound.offset % 7 = 0 ∧ (rewound.walk hsize).1.length = 2 ∧
      (rewound.walk hsize).2.offset = 20 ∧ ∃ full final, (rewound.walk hsize).1 = full ++ [final] ∧
        final.data.length = 6 ∧ finalPadding rewound.payload.length = 7 - final.data.length := by
  have hsize : rewound.Sized := rfl
  obtain ⟨hcount, hbehind, -, -, full, final, hwalk, -, -, hrest, hpadding⟩ := walk_exact rewound hsize
  have haligned : rewound.offset % 7 = 0 := rfl
  have hin : rewound.offset < rewound.payload.length := by decide
  have hreported := (hpadding haligned).2 (.inl hin)
  have hone : finalPadding rewound.payload.length = 1 := by decide
  exact ⟨hsize, haligned, hcount, by rw [hbehind]; rfl, full, final, hwalk, by omega, hreported⟩

end Writing

end SdoClient
