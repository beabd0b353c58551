import Mathlib.Data.Nat.Digits.Defs

/-!
# Image sniffing (`shared/image_sniff.py`)

The format of an image is read off its first bytes, and its size as far as the header has it. A read
past the end of the data would raise, so every read here may fail.
-/

namespace Spoo

namespace ImageSniff

/-- What reading the data may raise. -/
inductive SniffError where
  /-- `data[i]` past the end. -/
  | indexError
  /-- `struct.unpack` of a slice that is too short. -/
  | structError
  /-- The walk was given fewer steps than it takes. -/
  | unfinished
  deriving DecidableEq, Repr

/-- The formats of `ImageInfo`. -/
inductive ImageFormat where
  | png
  | jpeg
  | webp
  | gif
  deriving DecidableEq, Repr

/-- `ImageInfo`. -/
structure ImageInfo where
  format : ImageFormat
  width : Option Nat
  height : Option Nat
  deriving DecidableEq, Repr

/-! ## Reading bytes -/

/-- `data[i]`. -/
def byteAt (data : List UInt8) (i : Nat) : Except SniffError UInt8 :=
  match data[i]? with
  | some byte => .ok byte
  | none => .error .indexError

/-- `data[start:stop]`. -/
def slice (data : List UInt8) (start stop : Nat) : List UInt8 := (data.take stop).drop start

/-- An unsigned number, its low byte first. -/
def littleEndian (bytes : List UInt8) : Nat := Nat.ofDigits 256 (bytes.map UInt8.toNat)

/-- An unsigned number, its high byte first. -/
def bigEndian (bytes : List UInt8) : Nat := littleEndian bytes.reverse

/-- `struct.unpack` of one number of `size` bytes. -/
def unpackOne (number : List UInt8 → Nat) (size : Nat) (bytes : List UInt8) : Except SniffError Nat :=
  if bytes.length = size then .ok (number bytes) else .error .structError

/-- `struct.unpack` of two numbers of `size` bytes. -/
def unpackTwo (number : List UInt8 → Nat) (size : Nat) (bytes : List UInt8) :
    Except SniffError (Nat × Nat) :=
  if bytes.length = size + size then .ok (number (bytes.take size), number (bytes.drop size))
  else .error .structError

@[simp] theorem byteAt_append (before data : List UInt8) (i : Nat) :
    byteAt (before ++ data) (before.length + i) = byteAt data i := by
  simp [byteAt, List.getElem?_append_right]

@[simp] theorem byteAt_cons_zero (byte : UInt8) (data : List UInt8) : byteAt (byte :: data) 0 = .ok byte := rfl

@[simp] theorem byteAt_cons_succ (byte : UInt8) (data : List UInt8) (i : Nat) :
    byteAt (byte :: data) (i + 1) = byteAt data i := by
  simp [byteAt]

/-- A byte within the data is read. -/
theorem byteAt_of_lt {data : List UInt8} {i : Nat} (h : i < data.length) : byteAt data i = .ok data[i] := by
  simp [byteAt, h]

@[simp] theorem slice_append (before data : List UInt8) (start stop : Nat) :
    slice (before ++ data) (before.length + start) (before.length + stop) = slice data start stop := by
  simp [slice, List.take_append, List.drop_append]

/-- A slice within the data has its length. -/
theorem length_slice {data : List UInt8} {start stop : Nat} (h : stop ≤ data.length) :
    (slice data start stop).length = stop - start := by
  simp [slice, Nat.min_eq_left h]

theorem unpackOne_of_length {bytes : List UInt8} {size : Nat} (number : List UInt8 → Nat)
    (h : bytes.length = size) : unpackOne number size bytes = .ok (number bytes) := by
  simp [unpackOne, h]

theorem unpackTwo_of_length {bytes : List UInt8} {size : Nat} (number : List UInt8 → Nat)
    (h : bytes.length = size + size) :
    unpackTwo number size bytes = .ok (number (bytes.take size), number (bytes.drop size)) := by
  simp [unpackTwo, h]

/-! ## JPEG -/

/-- The markers without a length behind them. -/
def isStandalone (marker : UInt8) : Bool :=
  marker = 0xD8 || marker = 0x01 || (decide (0xD0 ≤ marker) && decide (marker ≤ 0xD7))

/-- The markers of a frame header. -/
def isStartOfFrame (marker : UInt8) : Bool :=
  decide (0xC0 ≤ marker) && decide (marker ≤ 0xCF) && !(marker = 0xC4 || marker = 0xC8 || marker = 0xCC)

/-- The loop of `_jpeg_dimensions`, for a number of steps. -/
def jpegWalk (data : List UInt8) : Nat → Nat → Except SniffError (Option (Nat × Nat))
  | 0, i => if i + 9 < data.length then .error .unfinished else .ok none
  | fuel + 1, i =>
    if i + 9 < data.length then do
      let start ← byteAt data i
      if start ≠ 0xFF then .ok none
      else
        let marker ← byteAt data (i + 1)
        if isStandalone marker then jpegWalk data fuel (i + 2)
        else if isStartOfFrame marker then
          let (height, width) ← unpackTwo bigEndian 2 (slice data (i + 5) (i + 9))
          .ok (some (width, height))
        else
          let segLen ← unpackOne bigEndian 2 (slice data (i + 2) (i + 4))
          jpegWalk data fuel (i + (2 + segLen))
    else .ok none

/-- `_jpeg_dimensions`: the walk goes on by two bytes or more, so it takes fewer steps than the data
has bytes. -/
def jpegDimensions (data : List UInt8) : Except SniffError (Option (Nat × Nat)) :=
  jpegWalk data data.length 2

/-! ## WebP -/

/-- `_webp_dimensions`. -/
def webpDimensions (data : List UInt8) : Except SniffError (Option (Nat × Nat)) := do
  let chunk := slice data 12 16
  -- "VP8 "
  if chunk = [0x56, 0x50, 0x38, 0x20] ∧ 30 ≤ data.length then
    let w ← unpackOne littleEndian 2 (slice data 26 28)
    let h ← unpackOne littleEndian 2 (slice data 28 30)
    .ok (some (w &&& 0x3FFF, h &&& 0x3FFF))
  -- "VP8L"
  else if chunk = [0x56, 0x50, 0x38, 0x4C] ∧ 25 ≤ data.length then
    let bits ← unpackOne littleEndian 4 (slice data 21 25)
    .ok (some ((bits &&& 0x3FFF) + 1, ((bits >>> 14) &&& 0x3FFF) + 1))
  -- "VP8X"
  else if chunk = [0x56, 0x50, 0x38, 0x58] ∧ 30 ≤ data.length then
    .ok (some (littleEndian (slice data 24 27) + 1, littleEndian (slice data 27 30) + 1))
  else .ok none

/-! ## The formats -/

/-- `b"\x89PNG\r\n\x1a\n"`. -/
def pngMagic : List UInt8 := [0x89, 0x50, 0x4E, 0x47, 0x0D, 0x0A, 0x1A, 0x0A]

/-- `b"\xff\xd8\xff"`. -/
def jpegMagic : List UInt8 := [0xFF, 0xD8, 0xFF]

/-- `b"RIFF"`. -/
def riffMagic : List UInt8 := [0x52, 0x49, 0x46, 0x46]

/-- `b"WEBP"`. -/
def webpMagic : List UInt8 := [0x57, 0x45, 0x42, 0x50]

/-- `(b"GIF87a", b"GIF89a")`. -/
def gifMagics : List (List UInt8) :=
  [[0x47, 0x49, 0x46, 0x38, 0x37, 0x61], [0x47, 0x49, 0x46, 0x38, 0x39, 0x61]]

/-- `ImageInfo(format, *(dims or (None, None)))`. -/
def ImageInfo.ofDimensions (format : ImageFormat) (dims : Option (Nat × Nat)) : ImageInfo :=
  ⟨format, dims.map (·.1), dims.map (·.2)⟩

/-- `sniff_image` (`image_sniff.py:32-53`). -/
def sniffImage (data : List UInt8) : Except SniffError (Option ImageInfo) :=
  if slice data 0 8 = pngMagic then
    -- "IHDR"
    if 24 ≤ data.length ∧ slice data 12 16 = [0x49, 0x48, 0x44, 0x52] then do
      let (w, h) ← unpackTwo bigEndian 4 (slice data 16 24)
      .ok (some ⟨.png, some w, some h⟩)
    else .ok (some ⟨.png, none, none⟩)
  else if slice data 0 3 = jpegMagic then do
    let dims ← jpegDimensions data
    .ok (some (.ofDimensions .jpeg dims))
  else if slice data 0 4 = riffMagic ∧ slice data 8 12 = webpMagic then do
    let dims ← webpDimensions data
    .ok (some (.ofDimensions .webp dims))
  else if slice data 0 6 ∈ gifMagics then
    if 10 ≤ data.length then do
      let (w, h) ← unpackTwo littleEndian 2 (slice data 6 10)
      .ok (some ⟨.gif, some w, some h⟩)
    else .ok (some ⟨.gif, none, none⟩)
  else .ok none

end ImageSniff

end Spoo
