import Mathlib.Data.List.TakeDrop
import PhpProf.Gzencode

/-! What `gzencode` keeps of its input. The stream's input length has 32 bits, so
a longer input is cut before it is compressed, and its result is a valid gzip
stream of the part that is left. -/
namespace PhpProf.GzencodeProofs
open Text

/-- The gzip format: what a compressor writes for some bytes, and what a
decompressor makes of it. -/
structure GzipFormat where
  compress : Bytes → Bytes
  decompress : Bytes → Option Bytes
  decompress_compress : ∀ bytes, decompress (compress bytes) = some bytes

/-- `deflate` with `Z_FINISH` as documented: it reads all of its input, and
returns `Z_STREAM_END` exactly when there is room for the compressed input. -/
structure Documented (zlib : Zlib) (format : GzipFormat) : Prop where
  finishes : ∀ stream, stream.params = gzipParams →
    (format.compress stream.input).length ≤ stream.availOut.toNat →
    zlib.deflate stream = (.streamEnd, format.compress stream.input)
  stops : ∀ stream, stream.params = gzipParams →
    stream.availOut.toNat < (format.compress stream.input).length →
    (zlib.deflate stream).1 ≠ .streamEnd

variable {zlib : Zlib} {format : GzipFormat} {scaled : UInt64 → UInt64} {buf : Bytes} {len : UInt64}

/-- zlib can be set up, and there is room for the compressed input. -/
def HasRoom (zlib : Zlib) (format : GzipFormat) (stream : ZStream) : Prop :=
  zlib.deflateInit2 gzipParams = .ok ∧
    (format.compress stream.input).length ≤ stream.availOut.toNat

/-- Something is returned only when there is room, and then it is the compressed
input of the stream. -/
theorem gzencode_eq_some_iff (documented : Documented zlib format) {out : Bytes} :
    gzencode zlib scaled buf len = some out ↔
      HasRoom zlib format (gzencodeStream scaled buf len) ∧
        out = format.compress (gzencodeStream scaled buf len).input := by
  unfold gzencode HasRoom
  by_cases setUp : zlib.deflateInit2 gzipParams = .ok
  · rw [if_neg (not_not.mpr setUp)]
    by_cases room : (format.compress (gzencodeStream scaled buf len).input).length ≤
        (gzencodeStream scaled buf len).availOut.toNat
    · simp [documented.finishes _ rfl room, setUp, room, eq_comm]
    · have stopped := documented.stops (gzencodeStream scaled buf len) rfl (by omega)
      simp [stopped, room]
  · simp [setUp]

/-- The input of the stream is all of the buffer only below `2 ^ 32` bytes. -/
theorem input_eq_iff (size : len.toNat = buf.length) :
    (gzencodeStream scaled buf len).input = buf ↔ buf.length < 2 ^ 32 := by
  have cut : (gzencodeStream scaled buf len).availIn.toNat = buf.length % 2 ^ 32 := by
    simp only [gzencodeStream, UInt64.toNat_toUInt32, size]
  rw [ZStream.input, cut]
  show buf.take (buf.length % 2 ^ 32) = buf ↔ _
  rw [List.take_eq_self_iff]
  omega

/-- Whatever is returned is a gzip stream of the whole input. -/
def LosesNothing (zlib : Zlib) (format : GzipFormat) (scaled : UInt64 → UInt64) (buf : Bytes)
    (len : UInt64) : Prop :=
  ∀ out, gzencode zlib scaled buf len = some out → format.decompress out = some buf

/-- Nothing is lost exactly when the length fits 32 bits, or NULL is returned
for want of memory or of room for the part that is left. -/
theorem gzencode_loses_nothing_iff (documented : Documented zlib format)
    (scaled : UInt64 → UInt64) {buf : Bytes} {len : UInt64} (size : len.toNat = buf.length) :
    LosesNothing zlib format scaled buf len ↔
      buf.length < 2 ^ 32 ∨ ¬ HasRoom zlib format (gzencodeStream scaled buf len) := by
  unfold LosesNothing
  constructor
  · intro kept
    by_cases room : HasRoom zlib format (gzencodeStream scaled buf len)
    · left
      have returned := kept _ ((gzencode_eq_some_iff documented).mpr ⟨room, rfl⟩)
      rw [format.decompress_compress, Option.some.injEq] at returned
      exact (input_eq_iff size).mp returned
    · exact .inr room
  · rintro holds out returned
    obtain ⟨room, rfl⟩ := (gzencode_eq_some_iff documented).mp returned
    have short := holds.resolve_right (not_not.mpr room)
    have whole : (gzencodeStream scaled buf len).input = buf := (input_eq_iff size).mpr short
    rw [format.decompress_compress, whole]

/-! ## Formats that agree with gzip on one input -/

/-- The gzip stream of one input; what is made of other inputs can be told from it. -/
structure GzipSample where
  input : Bytes
  stream : Bytes
  gzip : stream.head? = some 0x1f

def GzipSample.gzipFormat (sample : GzipSample) : GzipFormat where
  compress bytes := if bytes = sample.input then sample.stream else 0 :: bytes
  decompress out := if out = sample.stream then some sample.input else some out.tail
  decompress_compress := by
    intro bytes
    by_cases same : bytes = sample.input
    · rw [if_pos same, if_pos rfl, same]
    · have other : 0 :: bytes ≠ sample.stream := by
        intro clash
        have first := sample.gzip
        rw [← clash] at first
        cases first
      rw [if_neg same, if_neg other, List.tail_cons]

/-- zlib with a format: what does not fit is cut off, and the stream goes on. -/
def zlibOf (format : GzipFormat) : Zlib where
  deflateInit2 := fun _ => .ok
  deflate stream :=
    let out := format.compress stream.input
    if out.length ≤ stream.availOut.toNat then (.streamEnd, out)
    else (.ok, out.take stream.availOut.toNat)

theorem zlibOf_documented (format : GzipFormat) : Documented (zlibOf format) format where
  finishes := fun _ _ room => if_pos room
  stops := by
    intro stream _ short
    simp only [zlibOf, if_neg (not_le.mpr short)]
    decide

theorem zlibOf_bounds (format : GzipFormat) (stream : ZStream) :
    ((zlibOf format).deflate stream).2.length ≤ stream.availOut.toNat := by
  simp only [zlibOf]
  split
  · assumption
  · exact List.length_take_le _ _

/-- `1.015` times a length without rounding. -/
def exactlyScaled (inLen : UInt64) : UInt64 := UInt64.ofNat (inLen.toNat * 1015 / 1000)

def repeatedWord : GzipSample where
  input := ascii "samples samples samples"
  stream :=
    [31, 139, 8, 0, 0, 0, 0, 0, 0, 3, 43, 78, 204, 45, 200, 73, 45, 86, 40, 70, 165, 1, 167, 16,
     126, 73, 23, 0, 0, 0]
  gzip := rfl

theorem repeated_word_is_kept :
    gzencode (zlibOf repeatedWord.gzipFormat) exactlyScaled repeatedWord.input 23 =
        some repeatedWord.stream ∧
      LosesNothing (zlibOf repeatedWord.gzipFormat) repeatedWord.gzipFormat exactlyScaled
        repeatedWord.input 23 := by
  refine ⟨by decide +kernel, ?_⟩
  have size : (23 : UInt64).toNat = repeatedWord.input.length := rfl
  have short : repeatedWord.input.length < 2 ^ 32 := by decide
  exact (gzencode_loses_nothing_iff (zlibOf_documented repeatedWord.gzipFormat) exactlyScaled
    size).mpr (.inl short)

/-! ## Inputs that are cut to nothing -/

/-- The gzip stream of the empty input. -/
def emptyGzip : Bytes :=
  [0x1f, 0x8b, 8, 0, 0, 0, 0, 0, 0, 3, 3, 0, 0, 0, 0, 0, 0, 0, 0, 0]

/-- A format that agrees with gzip on the empty input. -/
def emptyFormat : GzipFormat where
  compress bytes := emptyGzip ++ bytes
  decompress out := if out.take 20 = emptyGzip then some (out.drop 20) else none
  decompress_compress := fun _ => rfl

/-- zlib with this format. -/
def emptyZlib : Zlib where
  deflateInit2 := fun _ => .ok
  deflate stream :=
    let out := emptyFormat.compress stream.input
    if out.length ≤ stream.availOut.toNat then (.streamEnd, out)
    else (.ok, out.take stream.availOut.toNat)

theorem emptyZlib_documented : Documented emptyZlib emptyFormat where
  finishes := fun _ _ room => if_pos room
  stops := by
    intro stream _ short
    simp only [emptyZlib, if_neg (not_le.mpr short)]
    decide

/-- Of a buffer of `2 ^ 32` bytes nothing is read, and the result is a gzip
stream of no bytes. -/
theorem four_gibibytes_are_lost :
    gzencode emptyZlib exactlyScaled (List.replicate (2 ^ 32) 0) 4294967296 = some emptyGzip ∧
      ¬ LosesNothing emptyZlib emptyFormat exactlyScaled (List.replicate (2 ^ 32) 0)
        4294967296 := by
  have nothing : (gzencodeStream exactlyScaled (List.replicate (2 ^ 32) 0) 4294967296).input =
      [] := List.take_zero
  have returned : gzencode emptyZlib exactlyScaled (List.replicate (2 ^ 32) 0) 4294967296 =
      some emptyGzip := by
    rw [gzencode_eq_some_iff emptyZlib_documented, HasRoom, nothing]
    exact ⟨⟨rfl, by decide⟩, rfl⟩
  refine ⟨returned, fun kept => ?_⟩
  have whole : some [] = some (List.replicate (2 ^ 32) (0 : UInt8)) := kept emptyGzip returned
  rw [Option.some.injEq, eq_comm, List.replicate_eq_nil_iff] at whole
  omega

end PhpProf.GzencodeProofs
