import Mathlib.Tactic.Common
import Spoo.Shared.ImageSniff

/-!
# What image sniffing reads

No input makes it read past its end, whatever lengths the input claims. A JPEG file is written here
from its parts, and the walk comes to the size in its frame header over any parts before it.
-/

namespace Spoo

namespace ImageSniff

/-! ## Nothing raises -/

section

variable {data : List UInt8}

/-- Each step goes on by two bytes or more, and the loop stops ten bytes before the end. -/
theorem jpegWalk_total (fuel i : Nat) (hfuel : data.length ≤ i + 9 + fuel) :
    ∃ dims, jpegWalk data fuel i = .ok dims := by
  induction fuel generalizing i with
  | zero =>
    rw [jpegWalk, if_neg (by omega)]
    exact ⟨none, rfl⟩
  | succ fuel ih =>
    rw [jpegWalk]
    by_cases hguard : i + 9 < data.length
    · rw [if_pos hguard, byteAt_of_lt (by omega), byteAt_of_lt (show i + 1 < data.length by omega)]
      simp only [bind, Except.bind]
      by_cases hstart : data[i] ≠ 0xFF
      · exact ⟨none, by rw [if_pos hstart]⟩
      · rw [if_neg hstart]
        by_cases hstandalone : isStandalone data[i + 1] = true
        · rw [if_pos hstandalone]
          exact ih (i + 2) (by omega)
        · rw [if_neg hstandalone]
          by_cases hframe : isStartOfFrame data[i + 1] = true
          · have hsize : (slice data (i + 5) (i + 9)).length = 2 + 2 := by
              rw [length_slice (by omega)]
              omega
            rw [if_pos hframe, unpackTwo_of_length bigEndian hsize]
            exact ⟨_, rfl⟩
          · have hsize : (slice data (i + 2) (i + 4)).length = 2 := by
              rw [length_slice (by omega)]
              omega
            rw [if_neg hframe, unpackOne_of_length bigEndian hsize]
            exact ih _ (by omega)
    · rw [if_neg hguard]
      exact ⟨none, rfl⟩

theorem jpegDimensions_total (data : List UInt8) : ∃ dims, jpegDimensions data = .ok dims :=
  jpegWalk_total data.length 2 (by omega)

/-- Each chunk is read within the length that its branch asks for. -/
theorem webpDimensions_total (data : List UInt8) : ∃ dims, webpDimensions data = .ok dims := by
  rw [webpDimensions]
  by_cases hlossy : slice data 12 16 = [0x56, 0x50, 0x38, 0x20] ∧ 30 ≤ data.length
  · have hwidth : (slice data 26 28).length = 2 := length_slice (by omega)
    have hheight : (slice data 28 30).length = 2 := length_slice (by omega)
    rw [if_pos hlossy, unpackOne_of_length littleEndian hwidth, unpackOne_of_length littleEndian hheight]
    exact ⟨_, rfl⟩
  · rw [if_neg hlossy]
    by_cases hlossless : slice data 12 16 = [0x56, 0x50, 0x38, 0x4C] ∧ 25 ≤ data.length
    · have hbits : (slice data 21 25).length = 4 := length_slice (by omega)
      rw [if_pos hlossless, unpackOne_of_length littleEndian hbits]
      exact ⟨_, rfl⟩
    · rw [if_neg hlossless]
      split
      · exact ⟨_, rfl⟩
      · exact ⟨none, rfl⟩

/-- Sniffing ends on every input, and raises on none. -/
theorem sniffImage_total (data : List UInt8) : ∃ info, sniffImage data = .ok info := by
  rw [sniffImage]
  by_cases hpng : slice data 0 8 = pngMagic
  · rw [if_pos hpng]
    by_cases hheader : 24 ≤ data.length ∧ slice data 12 16 = [0x49, 0x48, 0x44, 0x52]
    · have hsize : (slice data 16 24).length = 4 + 4 := length_slice hheader.1
      rw [if_pos hheader, unpackTwo_of_length bigEndian hsize]
      exact ⟨_, rfl⟩
    · rw [if_neg hheader]
      exact ⟨_, rfl⟩
  · rw [if_neg hpng]
    by_cases hjpeg : slice data 0 3 = jpegMagic
    · obtain ⟨dims, hdims⟩ := jpegDimensions_total data
      rw [if_pos hjpeg, hdims]
      exact ⟨_, rfl⟩
    · rw [if_neg hjpeg]
      by_cases hwebp : slice data 0 4 = riffMagic ∧ slice data 8 12 = webpMagic
      · obtain ⟨dims, hdims⟩ := webpDimensions_total data
        rw [if_pos hwebp, hdims]
        exact ⟨_, rfl⟩
      · rw [if_neg hwebp]
        by_cases hgif : slice data 0 6 ∈ gifMagics
        · rw [if_pos hgif]
          by_cases hlength : 10 ≤ data.length
          · have hsize : (slice data 6 10).length = 2 + 2 := length_slice hlength
            rw [if_pos hlength, unpackTwo_of_length littleEndian hsize]
            exact ⟨_, rfl⟩
          · rw [if_neg hlength]
            exact ⟨_, rfl⟩
        · rw [if_neg hgif]
          exact ⟨none, rfl⟩

end

/-! ## A JPEG file -/

/-- SOI, TEM and the restart markers stand alone. -/
def standaloneMarkers : List UInt8 := [0x01, 0xD0, 0xD1, 0xD2, 0xD3, 0xD4, 0xD5, 0xD6, 0xD7, 0xD8]

/-- The thirteen kinds of frame. -/
def frameMarkers : List UInt8 :=
  [0xC0, 0xC1, 0xC2, 0xC3, 0xC5, 0xC6, 0xC7, 0xC9, 0xCA, 0xCB, 0xCD, 0xCE, 0xCF]

theorem isStandalone_iff (marker : UInt8) : isStandalone marker = true ↔ marker ∈ standaloneMarkers := by
  simp only [isStandalone, standaloneMarkers, Bool.or_eq_true, Bool.and_eq_true, decide_eq_true_eq,
    UInt8.le_iff_toNat_le, List.mem_cons, List.not_mem_nil, or_false, ← UInt8.toNat_inj]
  simp
  omega

theorem isStartOfFrame_iff (marker : UInt8) : isStartOfFrame marker = true ↔ marker ∈ frameMarkers := by
  simp only [isStartOfFrame, frameMarkers, Bool.and_eq_true, decide_eq_true_eq, Bool.not_eq_true',
    Bool.or_eq_false_iff, decide_eq_false_iff_not, UInt8.le_iff_toNat_le, List.mem_cons, List.not_mem_nil,
    or_false, ← UInt8.toNat_inj]
  simp
  omega

/-- A number of two bytes, the high byte first. -/
def twoBytes (n : Nat) : List UInt8 := [UInt8.ofNat (n / 256), UInt8.ofNat (n % 256)]

theorem bigEndian_twoBytes {n : Nat} (h : n < 65536) : bigEndian (twoBytes n) = n := by
  simp [bigEndian, littleEndian, twoBytes, Nat.ofDigits_cons]
  omega

@[simp] theorem length_twoBytes (n : Nat) : (twoBytes n).length = 2 := rfl

/-- What stands before a frame header: a marker alone, or a segment that tells its length. -/
inductive JpegPart where
  | standalone (marker : UInt8) (marker_mem : marker ∈ standaloneMarkers)
  | segment (marker : UInt8) (payload : List UInt8)
      (marker_not_mem : marker ∉ standaloneMarkers ∧ marker ∉ frameMarkers)
      (payload_length : payload.length + 2 < 65536)

/-- The length of a segment counts its own two bytes. -/
def JpegPart.bytes : JpegPart → List UInt8
  | standalone marker _ => [0xFF, marker]
  | segment marker payload _ _ => 0xFF :: marker :: (twoBytes (payload.length + 2) ++ payload)

/-- A component of a frame. -/
structure FrameComponent where
  id : UInt8
  sampling : UInt8
  table : UInt8

def FrameComponent.bytes (component : FrameComponent) : List UInt8 :=
  [component.id, component.sampling, component.table]

/-- A frame header. -/
structure FrameHeader where
  marker : UInt8
  marker_mem : marker ∈ frameMarkers
  precision : UInt8
  height : Nat
  height_lt : height < 65536
  width : Nat
  width_lt : width < 65536
  components : List FrameComponent
  components_le : components.length ≤ 255

/-- The parameters of a frame behind its length. -/
def FrameHeader.parameters (frame : FrameHeader) : List UInt8 :=
  frame.precision :: (twoBytes frame.height ++ (twoBytes frame.width ++
    UInt8.ofNat frame.components.length :: frame.components.flatMap FrameComponent.bytes))

def FrameHeader.bytes (frame : FrameHeader) : List UInt8 :=
  0xFF :: frame.marker :: (twoBytes (8 + 3 * frame.components.length) ++ frame.parameters)

/-- A file: SOI, the parts before the frame, its header, and any data behind it. -/
def jpegFile (parts : List JpegPart) (frame : FrameHeader) (rest : List UInt8) : List UInt8 :=
  [0xFF, 0xD8] ++ (parts.flatMap JpegPart.bytes ++ (frame.bytes ++ rest))

/-! ## The walk over a file -/

section

variable {before tail : List UInt8} {marker : UInt8}

theorem not_isStandalone_of_frame (h : marker ∈ frameMarkers) : isStandalone marker = false := by
  have hdisjoint : frameMarkers.all (fun marker => !isStandalone marker) = true := by decide
  simpa using List.all_eq_true.1 hdisjoint marker h

/-- One step of the walk, in front of a marker. -/
theorem jpegWalk_marker (fuel : Nat) (hlength : 8 ≤ tail.length) :
    jpegWalk (before ++ 0xFF :: marker :: tail) (fuel + 1) before.length =
      if isStandalone marker then jpegWalk (before ++ 0xFF :: marker :: tail) fuel (before.length + 2)
      else if isStartOfFrame marker then
        (unpackTwo bigEndian 2 (slice tail 3 7)).map fun sizes => some (sizes.2, sizes.1)
      else (unpackOne bigEndian 2 (slice tail 0 2)).bind fun segLen =>
        jpegWalk (before ++ 0xFF :: marker :: tail) fuel (before.length + (2 + segLen)) := by
  have hguard : before.length + 9 < (before ++ 0xFF :: marker :: tail).length := by
    simp only [List.length_append, List.length_cons]
    omega
  have hstart : byteAt (before ++ 0xFF :: marker :: tail) before.length = .ok 0xFF := by
    rw [← Nat.add_zero before.length, byteAt_append, byteAt_cons_zero]
  have hmarker : byteAt (before ++ 0xFF :: marker :: tail) (before.length + 1) = .ok marker := by
    rw [byteAt_append, byteAt_cons_succ, byteAt_cons_zero]
  have hlengths : slice (before ++ 0xFF :: marker :: tail) (before.length + 2) (before.length + 4) =
      slice tail 0 2 := by
    rw [slice_append]
    rfl
  have hsizes : slice (before ++ 0xFF :: marker :: tail) (before.length + 5) (before.length + 9) =
      slice tail 3 7 := by
    rw [slice_append]
    rfl
  rw [jpegWalk, if_pos hguard, hstart, hmarker, hlengths, hsizes]
  cases unpackTwo bigEndian 2 (slice tail 3 7) <;> rfl

/-- A marker alone is stepped over. -/
theorem jpegWalk_standalone (fuel : Nat) (hmarker : marker ∈ standaloneMarkers)
    (hlength : 8 ≤ tail.length) :
    jpegWalk (before ++ 0xFF :: marker :: tail) (fuel + 1) before.length =
      jpegWalk (before ++ 0xFF :: marker :: tail) fuel (before.length + 2) := by
  rw [jpegWalk_marker fuel hlength, if_pos ((isStandalone_iff marker).2 hmarker)]

/-- A segment is stepped over by the length that it tells. -/
theorem jpegWalk_segment (fuel size : Nat) (hstandalone : marker ∉ standaloneMarkers)
    (hframe : marker ∉ frameMarkers) (hsize : size < 65536) (hlength : 6 ≤ tail.length) :
    jpegWalk (before ++ 0xFF :: marker :: (twoBytes size ++ tail)) (fuel + 1) before.length =
      jpegWalk (before ++ 0xFF :: marker :: (twoBytes size ++ tail)) fuel (before.length + (2 + size)) := by
  have hlength' : 8 ≤ (twoBytes size ++ tail).length := by
    rw [List.length_append, length_twoBytes]
    omega
  have hslice : slice (twoBytes size ++ tail) 0 2 = twoBytes size := rfl
  rw [jpegWalk_marker fuel hlength', if_neg ((isStandalone_iff marker).not.2 hstandalone),
    if_neg ((isStartOfFrame_iff marker).not.2 hframe), hslice,
    unpackOne_of_length bigEndian (length_twoBytes size), bigEndian_twoBytes hsize]
  rfl

/-- The size is read from the header of a frame. -/
theorem jpegWalk_frame (fuel : Nat) (frame : FrameHeader) (rest : List UInt8) :
    jpegWalk (before ++ (frame.bytes ++ rest)) (fuel + 1) before.length =
      .ok (some (frame.width, frame.height)) := by
  have hlength : 8 ≤ (twoBytes (8 + 3 * frame.components.length) ++ frame.parameters ++ rest).length := by
    simp only [FrameHeader.parameters, List.length_append, List.length_cons, length_twoBytes]
    omega
  have hslice : slice (twoBytes (8 + 3 * frame.components.length) ++ frame.parameters ++ rest) 3 7 =
      twoBytes frame.height ++ twoBytes frame.width := rfl
  have hsize : (twoBytes frame.height ++ twoBytes frame.width).length = 2 + 2 := rfl
  have hheight : (twoBytes frame.height ++ twoBytes frame.width).take 2 = twoBytes frame.height := rfl
  have hwidth : (twoBytes frame.height ++ twoBytes frame.width).drop 2 = twoBytes frame.width := rfl
  have hmarker := (isStartOfFrame_iff frame.marker).2 frame.marker_mem
  rw [FrameHeader.bytes, List.cons_append, List.cons_append, jpegWalk_marker fuel hlength,
    not_isStandalone_of_frame frame.marker_mem, if_neg Bool.false_ne_true, if_pos hmarker, hslice,
    unpackTwo_of_length bigEndian hsize, hheight, hwidth, bigEndian_twoBytes frame.height_lt,
    bigEndian_twoBytes frame.width_lt]
  rfl

theorem le_length_frame (frame : FrameHeader) : 10 ≤ frame.bytes.length := by
  simp only [FrameHeader.bytes, FrameHeader.parameters, List.length_append, List.length_cons, length_twoBytes]
  omega

/-- Over any parts the walk comes to the frame, a step for each part. -/
theorem jpegWalk_parts (parts : List JpegPart) (frame : FrameHeader) (rest before : List UInt8) (fuel : Nat)
    (hfuel : parts.length < fuel) :
    jpegWalk (before ++ (parts.flatMap JpegPart.bytes ++ (frame.bytes ++ rest))) fuel before.length =
      .ok (some (frame.width, frame.height)) := by
  induction parts generalizing before fuel with
  | nil =>
    obtain ⟨fuel, rfl⟩ := Nat.exists_eq_succ_of_ne_zero (Nat.ne_of_gt hfuel)
    exact jpegWalk_frame fuel frame rest
  | cons part parts ih =>
    obtain ⟨fuel, rfl⟩ := Nat.exists_eq_succ_of_ne_zero (Nat.ne_of_gt (Nat.zero_lt_of_lt hfuel))
    have hlater : parts.length < fuel := Nat.lt_of_succ_lt_succ hfuel
    have hframe := le_length_frame frame
    have htail : 10 ≤ (parts.flatMap JpegPart.bytes ++ (frame.bytes ++ rest)).length := by
      simp only [List.length_append]
      omega
    -- Behind the part, the walk is where it is for the parts that are left.
    have hbehind := ih (before ++ part.bytes) fuel hlater
    rw [List.append_assoc, List.length_append] at hbehind
    rw [List.flatMap_cons, List.append_assoc]
    cases part with
    | standalone marker hmarker =>
      have hstep := @jpegWalk_standalone before _ marker fuel hmarker (Nat.le_trans (by omega) htail)
      exact hstep.trans hbehind
    | segment marker payload hmarker hpayload =>
      have hlength : (JpegPart.segment marker payload hmarker hpayload).bytes.length =
          2 + (payload.length + 2) := by
        simp only [JpegPart.bytes, List.length_cons, List.length_append, length_twoBytes]
        omega
      have hbytes : ∀ data, (JpegPart.segment marker payload hmarker hpayload).bytes ++ data =
          0xFF :: marker :: (twoBytes (payload.length + 2) ++ (payload ++ data)) := by
        intro data
        simp [JpegPart.bytes]
      have hpast : 6 ≤ (payload ++ (parts.flatMap JpegPart.bytes ++ (frame.bytes ++ rest))).length := by
        rw [List.length_append]
        omega
      have hstep := @jpegWalk_segment before _ marker fuel (payload.length + 2) hmarker.1 hmarker.2
        hpayload hpast
      rw [hlength, hbytes] at hbehind
      rw [hbytes]
      exact hstep.trans hbehind

/-- The size of a file is the size in the header of its frame. -/
theorem jpegDimensions_jpegFile (parts : List JpegPart) (frame : FrameHeader) (rest : List UInt8) :
    jpegDimensions (jpegFile parts frame rest) = .ok (some (frame.width, frame.height)) := by
  have hparts : parts.length ≤ (parts.flatMap JpegPart.bytes).length := by
    induction parts with
    | nil => exact Nat.le_refl 0
    | cons part parts ih =>
      have hpart : 1 ≤ part.bytes.length := by
        cases part <;> exact Nat.le_add_left _ _
      rw [List.flatMap_cons, List.length_append, List.length_cons]
      omega
  have hfuel : parts.length < (jpegFile parts frame rest).length := by
    simp only [jpegFile, List.length_append, List.length_cons]
    omega
  exact jpegWalk_parts parts frame rest [0xFF, 0xD8] _ hfuel

end

/-! ## PNG and GIF files -/

/-! ## Every input -/

/-- Sniffing ends without raising on every input, and reads the size of every JPEG file: the one in
the header of its frame, whatever markers and segments come before it and whatever data behind. -/
theorem sniffImage_total_jpeg :
    (∀ data, ∃ info, sniffImage data = .ok info) ∧
      ∀ (parts : List JpegPart) (frame : FrameHeader) (rest : List UInt8),
        jpegDimensions (jpegFile parts frame rest) = .ok (some (frame.width, frame.height)) ∧
          sniffImage (jpegFile parts frame rest) =
            .ok (some ⟨.jpeg, some frame.width, some frame.height⟩) := by
  refine ⟨sniffImage_total, ?_⟩
  intro parts frame rest
  have hsize := jpegDimensions_jpegFile parts frame rest
  have hpng : slice (jpegFile parts frame rest) 0 8 ≠ pngMagic := by
    intro hmagic
    cases (List.cons.inj hmagic).1
  have hjpeg : slice (jpegFile parts frame rest) 0 3 = jpegMagic := by
    cases parts with
    | nil => rfl
    | cons part parts => cases part <;> rfl
  refine ⟨hsize, ?_⟩
  rw [sniffImage, if_neg hpng, if_pos hjpeg, hsize]
  rfl

end ImageSniff

end Spoo
