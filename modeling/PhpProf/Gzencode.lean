import PhpProf.Text

/-! `gzencode.c`: the profile is compressed by one call of zlib, whose stream
counts its input and its output in 32 bits. -/
namespace PhpProf
open Text

/-- What zlib's functions return. -/
inductive ZStatus where
  | ok
  | streamEnd
  | bufError
  | memError
  | streamError
  | versionError
  deriving DecidableEq

/-- The parameters of `deflateInit2`. -/
structure DeflateParams where
  level : Int
  method : Nat
  windowBits : Nat
  memLevel : Nat
  strategy : Nat
  deriving DecidableEq

/-- The default compression into the gzip format. -/
def gzipParams : DeflateParams where
  level := -1
  method := 8
  windowBits := 15 ||| 16
  memLevel := 9
  strategy := 0

/-- A `z_stream` before its first `deflate`: the memory that `next_in` points to,
and what may be read of it and written at `next_out`. Both are `uInt`. -/
structure ZStream where
  params : DeflateParams
  nextIn : Bytes
  availIn : UInt32
  availOut : UInt32

/-- What the stream may read. -/
def ZStream.input (stream : ZStream) : Bytes := stream.nextIn.take stream.availIn.toNat

/-- The zlib functions that are called. `deflate` with `Z_FINISH` also gives what
it has written at `next_out`, `total_out` bytes of it. -/
structure Zlib where
  deflateInit2 : DeflateParams → ZStatus
  deflate : ZStream → ZStatus × Bytes

/-- `ZLIB_BUFFER_SIZE_GUESS`, for what `(size_t) ((double) in_len * 1.015)` comes
to after rounding. -/
def zlibBufferSizeGuess (scaled : UInt64 → UInt64) (inLen : UInt64) : UInt64 :=
  scaled inLen + 10 + 8 + 4 + 1

/-- The stream `gzencode` compresses. -/
def gzencodeStream (scaled : UInt64 → UInt64) (buf : Bytes) (len : UInt64) : ZStream where
  params := gzipParams
  nextIn := buf
  -- both lengths are cut to 32 bits
  availIn := len.toUInt32
  availOut := (zlibBufferSizeGuess scaled len).toUInt32

/-- `gzencode`; no result is NULL. -/
def gzencode (zlib : Zlib) (scaled : UInt64 → UInt64) (buf : Bytes) (len : UInt64) :
    Option Bytes :=
  if zlib.deflateInit2 gzipParams ≠ .ok then none
  else
    let (status, out) := zlib.deflate (gzencodeStream scaled buf len)
    if status ≠ .streamEnd then none else some out

end PhpProf
